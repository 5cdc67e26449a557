import BuptCar.Board
import BuptCar.Lib.Python

/-!
# `dep/data.h`

The package of the four cargo slots and its text. `encode` returns the text `sprintf` leaves in
`encode_data`, up to the terminating NUL.
-/

namespace BuptCar

structure BtPackage where
  count : Int
  cargoType : Nat → Int
  additionalInfo : Text

structure BtData where
  package : BtPackage

namespace BtData

/-- The global `data` is zero-initialised, so `additional_info` is the empty string. -/
def boot : BtData := ⟨{ count := 0, cargoType := fun _ => 0, additionalInfo := [] }⟩

def setCargo (location color : Int) (d : BtData) : BtData :=
  ⟨{ d.package with
    cargoType := Function.update d.package.cargoType
      ((location - 1).tmod platformNum).toNat color }⟩

def setCount (count : Int) (d : BtData) : BtData := ⟨{ d.package with count := count }⟩

/-- `"%d,%d,%d,%d,%d,%s"`. -/
def encode (d : BtData) : Text :=
  [','].intercalate
    [showInt d.package.count, showInt (d.package.cargoType 0), showInt (d.package.cargoType 1),
      showInt (d.package.cargoType 2), showInt (d.package.cargoType 3), d.package.additionalInfo]

end BtData

end BuptCar
