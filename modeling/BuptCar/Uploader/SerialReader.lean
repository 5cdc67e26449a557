import BuptCar.Lib.Machine
import BuptCar.Lib.Python

/-!
# `data_uploader/serial_reader.py`

The receive loop as a machine over the lines of the serial port. The state is the list of `good`
elements of the XML file, which every `append_xml` reads and writes anew, and the exception that
has ended the loop. The random choices of the program are a parameter. The lines are decoded
texts; `cargo` is assigned anew from each package before it is read, so it is no part of the state,
and the printing is left out.
-/

namespace BuptCar

/-- A `good` element. -/
structure Good where
  id : Text
  goodID : Text
  goodName : Text
  position : Text
  type : Text
  robotID : Text
  deriving DecidableEq

namespace Uploader

inductive PyError
  | valueError
  | indexError
  deriving DecidableEq

/-- `random.randint` as the program calls it: once for the letter, then once for each good. -/
structure Random where
  letter : Fin 26
  goodName : Nat → Fin 6

def good_names : List Text :=
  ["food".toList, "medicine".toList, "clothes".toList, "books".toList, "electronics".toList,
    "other".toList]

def colors : List Text :=
  ["red".toList, "green".toList, "blue".toList, "yellow".toList, "empty".toList]

def alphabets : List Char := "ABCDEFGHIJKLMNOPQRSTUVWXYZ".toList

structure Reader where
  xml : List Good
  raised : Option PyError
  deriving DecidableEq

def append_xml (id goodID goodName position type robotID : Text) (xml : List Good) : List Good :=
  xml ++ [⟨id, goodID, goodName, position, type, robotID⟩]

section
variable (rnd : Random)

def letter : Text := [alphabets.getD rnd.letter 'A']

/-- The loop `for i in range(len(cargo))`, from `i`. -/
def appendCargo (count : Int) : Nat → List Int → List Good → Reader
  | _, [], xml => { xml, raised := none }
  | i, c :: cargo, xml =>
    let name := showInt (count * 10 + i)
    let name := letter rnd ++ Python.zfill name 4
    let goodName := good_names.getD (rnd.goodName xml.length) []
    match Python.index colors c with
    | none => { xml, raised := some .indexError }
    | some type =>
      appendCargo count (i + 1) cargo
        (append_xml (showInt (count * 10 + i)) name goodName (showInt i) type "001".toList xml)

/-- One pass of the loop, for the line `r`. -/
def receive (r : Text) (xml : List Good) : Reader :=
  if r = "Platform Reached\r\n".toList then { xml, raised := none }
  else match r.splitOn ',' with
    | [count, cargo0, cargo1, cargo2, cargo3, _] =>
      match Python.int count, [cargo0, cargo1, cargo2, cargo3].mapM Python.int with
      | some count, some cargo => appendCargo rnd count 0 cargo xml
      | _, _ => { xml, raised := some .valueError }
    | _ => { xml, raised := some .valueError }

def step (s : Reader) (line : Text) : Reader :=
  match s.raised with
  | some _ => s
  | none => receive rnd line s.xml

/-- The loop, from the empty file. -/
def machine : Machine Reader Text := ⟨{ xml := [], raised := none }, step rnd⟩

end

end Uploader

end BuptCar
