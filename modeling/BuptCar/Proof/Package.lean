import BuptCar.Dep.AutoTrack
import BuptCar.Uploader.SerialReader

/-!
# The package text

`encode` fits the buffer `encode_data` (`bytes_encode`), and the uploader reads count and cargo back
(`splitOn_encode`, `receive_encode`). A package has commas, the notice of a platform has none, so
the one is never taken for the other (`encode_ne_notice`).
-/

namespace BuptCar

/-! ## Bytes -/

/-- The bytes of a text, in UTF-8. -/
def bytes (t : Text) : Nat := (t.map Char.utf8Size).sum

theorem bytes_append (s t : Text) : bytes (s ++ t) = bytes s + bytes t := by
  simp [bytes]

theorem bytes_le (t : Text) : bytes t ≤ 4 * t.length := by
  induction t with
  | nil => exact Nat.le_refl 0
  | cons c t ih =>
    have hc : bytes (c :: t) = c.utf8Size + bytes t := rfl
    have h4 := c.utf8Size_le_four
    rw [hc, List.length_cons]
    omega

theorem bytes_ascii {t : Text} (h : ∀ c ∈ t, c.toNat < 128) : bytes t = t.length := by
  induction t with
  | nil => rfl
  | cons c t ih =>
    have hc : c.utf8Size = 1 := by
      rw [Char.utf8Size_eq_one_iff, UInt32.le_iff_toNat_le]
      exact Nat.le_of_lt_succ (h c List.mem_cons_self)
    have ht := ih fun d hd => h d (List.mem_cons_of_mem _ hd)
    show c.utf8Size + bytes t = t.length + 1
    rw [hc, ht, Nat.add_comm]

theorem length_showInt_le {n : Int} {k : Nat} (hk : 0 < k) (h : n.natAbs < 10 ^ k) :
    (showInt n).length ≤ k + 1 := by
  cases n with
  | ofNat n => exact Nat.le_succ_of_le ((Nat.length_toDigits_le_iff (by decide) hk).2 h)
  | negSucc n => exact Nat.succ_le_succ ((Nat.length_toDigits_le_iff (by decide) hk).2 h)

/-- A sign and ten digits at most. -/
theorem bytes_showInt {n : Int} (h : Is32 n) : bytes (showInt n) ≤ 11 := by
  obtain ⟨hlo, hhi⟩ := h
  have hascii : ∀ c ∈ showInt n, c.toNat < 128 := by
    intro c hc
    rcases mem_showInt hc with rfl | hd
    · decide
    · have := Python.isDigit_toNat hd
      omega
  have hlen := length_showInt_le (n := n) (k := 10) (by decide) (by omega)
  rwa [bytes_ascii hascii]

namespace BtData

/-! ## Encoding -/

/-- The ranges of the fields, with a text that holds neither separator. -/
structure Fits (d : BtData) : Prop where
  count : Is32 d.package.count
  cargo : ∀ i < platformNum, Is32 (d.package.cargoType i)
  info : d.package.additionalInfo.length ≤ 15
  comma : ',' ∉ d.package.additionalInfo
  newline : '\n' ∉ d.package.additionalInfo

section
variable {d : BtData}

theorem bytes_encode (h : d.Fits) : bytes d.encode + 1 ≤ 128 := by
  have hcount := bytes_showInt h.count
  have h0 := bytes_showInt (h.cargo 0 (by decide))
  have h1 := bytes_showInt (h.cargo 1 (by decide))
  have h2 := bytes_showInt (h.cargo 2 (by decide))
  have h3 := bytes_showInt (h.cargo 3 (by decide))
  have hinfo := bytes_le d.package.additionalInfo
  have hlen := h.info
  have hcomma : bytes [','] = 1 := rfl
  simp only [encode, List.intercalate, List.intersperse, List.flatten_cons, List.flatten_nil,
    bytes_append, hcomma, List.append_nil]
  omega

theorem println_encode (d : BtData) : println d.encode = [','].intercalate
    [showInt d.package.count, showInt (d.package.cargoType 0), showInt (d.package.cargoType 1),
      showInt (d.package.cargoType 2), showInt (d.package.cargoType 3),
      println d.package.additionalInfo] := by
  simp [println, encode]

theorem splitOn_encode (h : ',' ∉ d.package.additionalInfo) : (println d.encode).splitOn ',' =
    [showInt d.package.count, showInt (d.package.cargoType 0), showInt (d.package.cargoType 1),
      showInt (d.package.cargoType 2), showInt (d.package.cargoType 3),
      println d.package.additionalInfo] := by
  rw [println_encode]
  refine List.splitOn_intercalate ',' (fun t ht => ?_) (by simp)
  have hshow := fun n : Int => not_mem_showInt (n := n) (c := ',') (by decide) (by decide)
  simp only [List.mem_cons, List.not_mem_nil, or_false] at ht
  rcases ht with rfl | rfl | rfl | rfl | rfl | rfl
  iterate 5 exact hshow _
  simpa [println] using h

theorem encode_ne_notice (d : BtData) : println d.encode ≠ "Platform Reached\r\n".toList := by
  intro heq
  have hc : ',' ∈ println d.encode := by simp [println, encode]
  rw [heq] at hc
  revert hc
  decide

theorem newline_not_mem_encode (h : '\n' ∉ d.package.additionalInfo) : '\n' ∉ d.encode := by
  have hshow := fun n : Int => not_mem_showInt (n := n) (c := '\n') (by decide) (by decide)
  simp [encode, hshow, h]

end

end BtData

/-! ## The uploader -/

namespace Uploader

theorem readlines_println {m : Text} (h : '\n' ∉ m) (rest : Text) :
    Python.readlines (println m ++ rest) = println m :: Python.readlines rest := by
  have hr : '\n' ∉ m ++ ['\r'] := by simpa using h
  have hm := Python.readlinesFrom_append hr [] rest
  simp only [List.nil_append, List.append_assoc, List.cons_append] at hm
  simpa [println, Python.readlines] using hm

section
variable (rnd : Random) (xml : List Good)

theorem receive_platformReached : receive rnd (println platformReached) xml = ⟨xml, none⟩ :=
  if_pos (by decide)

/-- The pass for a package reads its count and its cargo back. -/
theorem receive_encode {d : BtData} (h : ',' ∉ d.package.additionalInfo) :
    receive rnd (println d.encode) xml = appendCargo rnd d.package.count 0
      [d.package.cargoType 0, d.package.cargoType 1, d.package.cargoType 2,
        d.package.cargoType 3] xml := by
  simp only [receive, if_neg d.encode_ne_notice, BtData.splitOn_encode h, Python.int_showInt,
    List.mapM_cons, List.mapM_nil, Option.pure_def, Option.bind_eq_bind, Option.bind_some]

end

/-- **The package round trip**: the text fits its buffer, is one line, and splits into six fields
that read back as the count and the cargo; the uploader takes neither a package for a notice nor a
notice for a package. -/
theorem package_round_trip {d : BtData} (h : d.Fits) (rnd : Random) (xml : List Good) :
    bytes d.encode + 1 ≤ 128 ∧
    (∀ rest, Python.readlines (println d.encode ++ rest) =
      println d.encode :: Python.readlines rest) ∧
    (∃ count cargo0 cargo1 cargo2 cargo3 additional,
      (println d.encode).splitOn ',' = [count, cargo0, cargo1, cargo2, cargo3, additional] ∧
      Python.int count = some d.package.count ∧
      [cargo0, cargo1, cargo2, cargo3].map Python.int =
        (List.range platformNum).map fun i => some (d.package.cargoType i)) ∧
    println d.encode ≠ println platformReached ∧
    receive rnd (println d.encode) xml = appendCargo rnd d.package.count 0
      ((List.range platformNum).map d.package.cargoType) xml ∧
    receive rnd (println platformReached) xml = ⟨xml, none⟩ := by
  refine ⟨BtData.bytes_encode h, readlines_println (BtData.newline_not_mem_encode h.newline), ?_,
    d.encode_ne_notice, receive_encode rnd xml h.comma, receive_platformReached rnd xml⟩
  refine ⟨_, _, _, _, _, _, BtData.splitOn_encode h.comma, Python.int_showInt _, ?_⟩
  simp only [List.map_cons, List.map_nil, Python.int_showInt]
  rfl

/-- The longest numbers and the longest text. -/
def longest : BtData :=
  ⟨{ count := -2 ^ 31, cargoType := fun _ => -2 ^ 31, additionalInfo := List.replicate 15 'x' }⟩

theorem package_round_trip_longest :
    bytes longest.encode + 1 ≤ 128 ∧ println longest.encode ≠ println platformReached ∧
      receive ⟨0, fun _ => 0⟩ (println longest.encode) [] =
        appendCargo ⟨0, fun _ => 0⟩ (-2 ^ 31) 0
          ((List.range platformNum).map longest.package.cargoType) [] := by
  have hmin : Is32 (-2 ^ 31) := ⟨by decide, by decide⟩
  obtain ⟨hbytes, -, -, hne, hreceive, -⟩ := @package_round_trip longest
    ⟨hmin, fun _ _ => hmin, by decide, by decide, by decide⟩ ⟨0, fun _ => 0⟩ []
  exact ⟨hbytes, hne, hreceive⟩

end Uploader

end BuptCar
