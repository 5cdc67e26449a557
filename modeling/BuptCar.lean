import BuptCar.Task2
import BuptCar.Proof.Steering
import BuptCar.Proof.Commands
import BuptCar.Proof.Bridge
import BuptCar.Proof.Encoder
import BuptCar.Proof.Color
import BuptCar.Proof.ColorRead
import BuptCar.Lib.FirstMin
import BuptCar.Lib.Runs
import BuptCar.Proof.Frames
import BuptCar.Proof.Line
import BuptCar.Proof.Calibration
import BuptCar.Proof.Threshold
import BuptCar.Proof.Classification
import BuptCar.Proof.Step
import BuptCar.Proof.Tracking
import BuptCar.Proof.Exposure
import BuptCar.Uploader.SerialReader
import BuptCar.Proof.Package
import BuptCar.Proof.Delivery
import BuptCar.Proof.Speed
import BuptCar.Proof.Stale
import BuptCar.Proof.PidLaw
import BuptCar.Proof.Rounding
import BuptCar.Proof.Timer
import BuptCar.Proof.Assigned
import BuptCar.Proof.Recording
import BuptCar.Proof.Transport
import BuptCar.Proof.Noise
import BuptCar.Proof.Receive
import BuptCar.Proof.Settling
import BuptCar.Proof.Drive
import BuptCar.Proof.Stop
import BuptCar.Proof.Panel
import BuptCar.Proof.Sensor
import BuptCar.Proof.Light
import BuptCar.Proof.Warehouse
