import Mathlib.Data.List.Basic
import Mathlib.Data.List.DropRight

/-!
# Decimal texts, and the Python built-ins on them

A text is the list of its characters. `showInt` is the decimal text of an integer (C's `%d`,
Python's `str`); `Python.int` is Python's constructor `int(s)`, `none` standing for `ValueError`:
it accepts white space on both sides, a sign, single underscores between digits, and any Unicode
decimal digits and spaces. `Python.int_showInt` is the round trip.

`Python.zfill` and `Python.index` are `str.zfill` and the subscript of a list (`none` is
`IndexError`; a negative index counts from the end), `Python.readlines` the calls of `readline` on
a stream.
-/

abbrev Text := List Char

/-! ## Decimal texts -/

/-- The decimal text of an integer. -/
def showInt : Int → Text
  | .ofNat n => Nat.toDigits 10 n
  | .negSucc n => '-' :: Nat.toDigits 10 (n + 1)

theorem showInt_natCast (n : Nat) : showInt n = Nat.toDigits 10 n := rfl

theorem isDigit_of_mem_toDigits {n : Nat} {c : Char} (h : c ∈ Nat.toDigits 10 n) :
    c.isDigit = true :=
  Nat.isDigit_of_mem_toDigits (by decide) (by decide) h

theorem mem_showInt {n : Int} {c : Char} (h : c ∈ showInt n) : c = '-' ∨ c.isDigit = true := by
  match n, h with
  | .ofNat n, h => exact .inr (isDigit_of_mem_toDigits h)
  | .negSucc n, h =>
    rcases List.mem_cons.1 h with rfl | h
    · exact .inl rfl
    · exact .inr (isDigit_of_mem_toDigits h)

/-- A character that is neither a digit nor the minus sign is in no decimal text. -/
theorem not_mem_showInt {n : Int} {c : Char} (hc : c ≠ '-') (hd : c.isDigit = false) :
    c ∉ showInt n := by
  intro h
  rcases mem_showInt h with h | h
  · exact hc h
  · simp [hd] at h

namespace Python

/-! ## `int` -/

/-- The decimal digits zero of Unicode; the digits one to nine follow each of them. -/
def decimalZeros : List Nat :=
  [0x30, 0x660, 0x6f0, 0x7c0, 0x966, 0x9e6, 0xa66, 0xae6, 0xb66, 0xbe6, 0xc66, 0xce6, 0xd66, 0xde6,
   0xe50, 0xed0, 0xf20, 0x1040, 0x1090, 0x17e0, 0x1810, 0x1946, 0x19d0, 0x1a80, 0x1a90, 0x1b50,
   0x1bb0, 0x1c40, 0x1c50, 0xa620, 0xa8d0, 0xa900, 0xa9d0, 0xa9f0, 0xaa50, 0xabf0, 0xff10, 0x104a0,
   0x10d30, 0x11066, 0x110f0, 0x11136, 0x111d0, 0x112f0, 0x11450, 0x114d0, 0x11650, 0x116c0,
   0x11730, 0x118e0, 0x11950, 0x11c50, 0x11d50, 0x11da0, 0x16a60, 0x16ac0, 0x16b50, 0x1d7ce,
   0x1d7d8, 0x1d7e2, 0x1d7ec, 0x1d7f6, 0x1e140, 0x1e2f0, 0x1e950, 0x1fbf0]

/-- White space outside ASCII. -/
def wideSpaces : List Nat :=
  [0x85, 0xa0, 0x1680, 0x2000, 0x2001, 0x2002, 0x2003, 0x2004, 0x2005, 0x2006, 0x2007, 0x2008,
   0x2009, 0x200a, 0x2028, 0x2029, 0x202f, 0x205f, 0x3000]

/-- `int` first maps wide spaces and digits to ASCII, any other wide character to `?`. -/
def toAscii (c : Char) : Char :=
  if c.toNat < 128 then c
  else if wideSpaces.contains c.toNat then ' '
  else match decimalZeros.find? fun z => z ≤ c.toNat && c.toNat ≤ z + 9 with
    | some z => Nat.digitChar (c.toNat - z)
    | none => '?'

def isSpace (c : Char) : Bool := [' ', '\t', '\n', '\x0b', '\x0c', '\x0d'].contains c

/-- `str.strip()` on ASCII white space. -/
def strip (s : Text) : Text := (s.dropWhile isSpace).rdropWhile isSpace

/-- Groups of digits separated by single underscores. -/
def digits (s : Text) : Option Nat :=
  let groups := s.splitOn '_'
  if groups.all fun g => !g.isEmpty && g.all Char.isDigit then
    some (Nat.ofDigitChars 10 groups.flatten 0)
  else none

/-- `int(s)`; `none` is `ValueError`. -/
def int (s : Text) : Option Int :=
  match strip (s.map toAscii) with
  | '-' :: s => (digits s).map fun n : Nat => -(n : Int)
  | '+' :: s => (digits s).map fun n : Nat => (n : Int)
  | s => (digits s).map fun n : Nat => (n : Int)

theorem isDigit_toNat {c : Char} (h : c.isDigit = true) : 48 ≤ c.toNat ∧ c.toNat ≤ 57 := by
  simpa [Char.isDigit, UInt32.le_iff_toNat_le] using h

theorem digit_ne {c d : Char} (h : c.isDigit = true) (hd : d.isDigit = false) : c ≠ d := by
  rintro rfl
  simp [h] at hd

theorem isSpace_of_isDigit {c : Char} (h : c.isDigit = true) : isSpace c = false := by
  have := fun d hd => digit_ne (d := d) h hd
  simp [isSpace, this]

theorem toAscii_of_isDigit {c : Char} (h : c.isDigit = true) : toAscii c = c :=
  if_pos (by have := isDigit_toNat h; omega)

theorem map_toAscii {s : Text} (h : ∀ c ∈ s, c = '-' ∨ c.isDigit = true) : s.map toAscii = s := by
  conv_rhs => rw [← List.map_id s]
  refine List.map_congr_left fun c hc => ?_
  rcases h c hc with rfl | hd
  · rfl
  · exact toAscii_of_isDigit hd

theorem strip_of_not_space {s : Text} (h : ∀ c ∈ s, isSpace c = false) : strip s = s := by
  have h1 : s.dropWhile isSpace = s := by
    cases s with
    | nil => rfl
    | cons c s => simp [List.dropWhile, h c]
  rw [strip, h1, List.rdropWhile_eq_self_iff]
  intro hne hs
  simp [h _ (List.getLast_mem hne)] at hs

theorem digits_of_isDigit {s : Text} (hne : s ≠ []) (h : ∀ c ∈ s, c.isDigit = true) :
    digits s = some (Nat.ofDigitChars 10 s 0) := by
  have hsplit : s.splitOn '_' = [s] :=
    List.splitOn_eq_singleton fun hm => absurd (h '_' hm) (by decide)
  simp only [digits, hsplit]
  rw [if_pos]
  · simp
  · simpa [hne] using h

theorem int_of_isDigit {s : Text} (hne : s ≠ []) (h : ∀ c ∈ s, c.isDigit = true) :
    int s = some (Nat.ofDigitChars 10 s 0 : Int) := by
  unfold int
  rw [map_toAscii fun c hc => .inr (h c hc),
    strip_of_not_space fun c hc => isSpace_of_isDigit (h c hc)]
  split
  · exact absurd (h '-' List.mem_cons_self) (by decide)
  · exact absurd (h '+' List.mem_cons_self) (by decide)
  · rw [digits_of_isDigit hne h]
    rfl

theorem int_neg_of_isDigit {s : Text} (hne : s ≠ []) (h : ∀ c ∈ s, c.isDigit = true) :
    int ('-' :: s) = some (-(Nat.ofDigitChars 10 s 0 : Int)) := by
  have hm : ∀ c ∈ '-' :: s, c = '-' ∨ c.isDigit = true := by simpa using fun c hc => .inr (h c hc)
  have hs : ∀ c ∈ '-' :: s, isSpace c = false := by
    intro c hc
    rcases hm c hc with rfl | hd
    · decide
    · exact isSpace_of_isDigit hd
  unfold int
  rw [map_toAscii hm, strip_of_not_space hs]
  show (digits s).map (fun n : Nat => -(n : Int)) = _
  rw [digits_of_isDigit hne h]
  rfl

/-- `int` reads back the decimal text of an integer. -/
theorem int_showInt (n : Int) : int (showInt n) = some n := by
  match n with
  | .ofNat n =>
    refine (int_of_isDigit Nat.toDigits_ne_nil fun c hc => isDigit_of_mem_toDigits hc).trans ?_
    rw [Nat.ofDigitChars_ten_toDigits]
    rfl
  | .negSucc n =>
    refine (int_neg_of_isDigit Nat.toDigits_ne_nil fun c hc => isDigit_of_mem_toDigits hc).trans ?_
    rw [Nat.ofDigitChars_ten_toDigits]
    rfl

theorem showInt_injective : Function.Injective showInt := by
  intro m n h
  have := congrArg int h
  rwa [int_showInt, int_showInt, Option.some.injEq] at this

/-! ## `str.zfill` and list subscripts -/

/-- `s.zfill(width)`: zeros are inserted behind a sign. -/
def zfill (s : Text) (width : Nat) : Text :=
  let pad := List.replicate (width - s.length) '0'
  match s with
  | '-' :: s => '-' :: (pad ++ s)
  | '+' :: s => '+' :: (pad ++ s)
  | s => pad ++ s

theorem zfill_of_isDigit {s : Text} (h : ∀ c ∈ s, c.isDigit = true) (width : Nat) :
    zfill s width = List.replicate (width - s.length) '0' ++ s := by
  unfold zfill
  split
  · exact absurd (h '-' List.mem_cons_self) (by decide)
  · exact absurd (h '+' List.mem_cons_self) (by decide)
  · rfl

/-- `int` reads back the zero-padded decimal text of a natural number. -/
theorem int_zfill_showInt (n width : Nat) : int (zfill (showInt n) width) = some (n : Int) := by
  have hd : ∀ c ∈ Nat.toDigits 10 n, c.isDigit = true := fun c hc => isDigit_of_mem_toDigits hc
  rw [showInt_natCast, zfill_of_isDigit hd, int_of_isDigit, Nat.ofDigitChars_append,
    Nat.ofDigitChars_replicate_zero, Nat.mul_zero, Nat.ofDigitChars_ten_toDigits]
  · simp [Nat.toDigits_ne_nil]
  · intro c hc
    rcases List.mem_append.1 hc with hc | hc
    · rw [List.eq_of_mem_replicate hc]
      decide
    · exact hd c hc

/-- `xs[i]`; `none` is `IndexError`. -/
def index {α : Type} (xs : List α) (i : Int) : Option α :=
  if 0 ≤ i then xs[i.toNat]?
  else if 0 ≤ xs.length + i then xs[(xs.length + i).toNat]?
  else none

theorem index_isSome {α : Type} (xs : List α) (i : Int) :
    (index xs i).isSome = true ↔ -(xs.length : Int) ≤ i ∧ i < xs.length := by
  unfold index
  split
  · rw [Option.isSome_iff_ne_none, Ne, List.getElem?_eq_none_iff]
    omega
  · split
    · rw [Option.isSome_iff_ne_none, Ne, List.getElem?_eq_none_iff]
      omega
    · exact iff_of_false (by simp) (by omega)

/-! ## `readline` -/

/-- The complete lines of `s` behind the characters `line`, each with its `'\n'`. -/
def readlinesFrom (line : Text) : Text → List Text
  | [] => []
  | c :: s =>
    if c = '\n' then (line ++ [c]) :: readlinesFrom [] s else readlinesFrom (line ++ [c]) s

/-- What calling `readline` over and over gives on a stream `s`. -/
def readlines (s : Text) : List Text := readlinesFrom [] s

theorem readlinesFrom_append {t : Text} (h : '\n' ∉ t) (line s : Text) :
    readlinesFrom line (t ++ '\n' :: s) = (line ++ t ++ ['\n']) :: readlines s := by
  induction t generalizing line with
  | nil => simp [readlinesFrom, readlines]
  | cons c t ih =>
    obtain ⟨hc, ht⟩ : ¬ '\n' = c ∧ '\n' ∉ t := by simpa using h
    rw [List.cons_append, readlinesFrom, if_neg fun h => hc h.symm, ih ht]
    simp

/-- The lines of a stream so far stay the first lines of the stream. -/
theorem readlinesFrom_prefix (line s t : Text) :
    readlinesFrom line s <+: readlinesFrom line (s ++ t) := by
  induction s generalizing line with
  | nil => exact List.nil_prefix
  | cons c s ih =>
    rw [List.cons_append, readlinesFrom, readlinesFrom]
    split
    · exact List.cons_prefix_cons.2 ⟨rfl, ih []⟩
    · exact ih (line ++ [c])

theorem readlines_prefix {s t : Text} (h : s <+: t) : readlines s <+: readlines t := by
  obtain ⟨t, rfl⟩ := h
  exact readlinesFrom_prefix [] s t

/-- Texts without a line break, each ended by one, are read as these lines. -/
theorem readlines_flatMap {α : Type} {ms : List α} (f : α → Text)
    (h : ∀ m ∈ ms, '\n' ∉ f m) :
    readlines (ms.flatMap fun m => f m ++ ['\n']) = ms.map fun m => f m ++ ['\n'] := by
  induction ms with
  | nil => rfl
  | cons m ms ih =>
    have hm := readlinesFrom_append (h m List.mem_cons_self) [] (ms.flatMap fun m => f m ++ ['\n'])
    rw [List.flatMap_cons, List.map_cons, ← ih fun x hx => h x (List.mem_cons_of_mem _ hx),
      List.append_assoc]
    exact hm

end Python
