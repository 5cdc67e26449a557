import Mathlib.Data.Nat.ModEq
import Mathlib.Logic.Function.Basic

/-!
# Bitmaps in pages of bytes

A `Bitmap` is a memory of bytes. Under a width `w` the byte at `x + p * w` holds the eight pixels of
column `x` in page `p`, the uppermost in its lowest bit; `pixel` reads one. Every address is one of
these, so two bitmaps with the same pixels are equal (`ext_pixel`), and what is said of all pixels
is said of the whole memory.

* `pixel_modify`: the pixels behind a change of one byte.
* `Acts f mask op`: on bytes, `f` is `op` on the bits of `mask`.
* `Paints w op R b b'`: `b'` is `b` with `op` on the pixels in `R`; disjoint paintings compose
  (`Paints.trans`), and a painting determines its result (`Paints.unique`).
-/

abbrev Bitmap : Type := Nat → BitVec 8

namespace Bitmap

/-- Change the byte at an address. -/
def modify (p : Nat) (f : BitVec 8 → BitVec 8) (b : Bitmap) : Bitmap :=
  Function.update b p (f (b p))

variable (w : Nat)

def pixel (b : Bitmap) (x y : Nat) : Bool := (b (x + y / 8 * w)).getLsbD (y % 8)

section
variable {w}

theorem address_inj {x x' p p' : Nat} (hx : x < w) (hx' : x' < w)
    (h : x + p * w = x' + p' * w) : x = x' ∧ p = p' := by
  have hmod := congrArg (· % w) h
  simp only [Nat.add_mul_mod_self_right, Nat.mod_eq_of_lt hx, Nat.mod_eq_of_lt hx'] at hmod
  subst hmod
  exact ⟨rfl, Nat.eq_of_mul_eq_mul_right (Nat.zero_lt_of_lt hx) (Nat.add_left_cancel h)⟩

theorem ext_pixel (hw : 0 < w) {b b' : Bitmap}
    (h : ∀ x < w, ∀ y, b.pixel w x y = b'.pixel w x y) : b = b' := by
  funext a
  apply BitVec.eq_of_getLsbD_eq
  intro k hk
  have hpixel := h (a % w) (Nat.mod_lt a hw) (8 * (a / w) + k)
  have hdiv : (8 * (a / w) + k) / 8 = a / w := by omega
  have hmod : (8 * (a / w) + k) % 8 = k := by omega
  rwa [pixel, pixel, hdiv, hmod, Nat.mod_add_div' a w] at hpixel

theorem pixel_modify {x p u v : Nat} (hx : x < w) (hu : u < w) (f : BitVec 8 → BitVec 8)
    (b : Bitmap) : (b.modify (x + p * w) f).pixel w u v =
      if u = x ∧ v / 8 = p then (f (b (x + p * w))).getLsbD (v % 8) else b.pixel w u v := by
  unfold pixel modify
  by_cases h : u = x ∧ v / 8 = p
  · obtain ⟨rfl, rfl⟩ := h
    rw [if_pos ⟨rfl, rfl⟩, Function.update_self]
  · rw [if_neg h, Function.update_of_ne]
    exact fun heq => h (address_inj hu hx heq)

end

/-! ## Operations on the bits of a mask -/

def Acts (f : BitVec 8 → BitVec 8) (mask : BitVec 8) (op : Bool → Bool) : Prop :=
  ∀ byte, ∀ k < 8, (f byte).getLsbD k =
    if mask.getLsbD k then op (byte.getLsbD k) else byte.getLsbD k

def Paints (op : Bool → Bool) (R : Nat → Nat → Prop) (b b' : Bitmap) : Prop :=
  ∀ x < w, ∀ y, (R x y → b'.pixel w x y = op (b.pixel w x y)) ∧
    (¬R x y → b'.pixel w x y = b.pixel w x y)

section
variable {w} {op : Bool → Bool} {R S : Nat → Nat → Prop} {b b' b'' : Bitmap}

theorem Paints.congr (h : Paints w op R b b') (hRS : ∀ x < w, ∀ y, R x y ↔ S x y) :
    Paints w op S b b' := fun x hx y =>
  ⟨fun hS => (h x hx y).1 ((hRS x hx y).2 hS), fun hS => (h x hx y).2 (mt (hRS x hx y).1 hS)⟩

theorem paints_nothing (hR : ∀ x < w, ∀ y, ¬R x y) (b : Bitmap) : Paints w op R b b :=
  fun x hx y => ⟨fun h => absurd h (hR x hx y), fun _ => rfl⟩

theorem Paints.trans (h : Paints w op R b b') (h' : Paints w op S b' b'')
    (hRS : ∀ x < w, ∀ y, R x y → ¬S x y) : Paints w op (fun x y => R x y ∨ S x y) b b'' := by
  intro x hx y
  obtain ⟨hin, hout⟩ := h x hx y
  obtain ⟨hin', hout'⟩ := h' x hx y
  refine ⟨?_, fun hn => ?_⟩
  · rintro (hR | hS)
    · rw [hout' (hRS x hx y hR), hin hR]
    · rw [hin' hS, hout fun hR => hRS x hx y hR hS]
  · rw [hout' fun hS => hn (.inr hS), hout fun hR => hn (.inl hR)]

theorem Paints.unique (hw : 0 < w) (h : Paints w op R b b') (h' : Paints w op R b b'') :
    b' = b'' := by
  refine ext_pixel hw fun x hx y => ?_
  by_cases hR : R x y
  · rw [(h x hx y).1 hR, (h' x hx y).1 hR]
  · rw [(h x hx y).2 hR, (h' x hx y).2 hR]

/-- A change of one byte paints the bits of its mask. -/
theorem paints_modify {f : BitVec 8 → BitVec 8} {mask : BitVec 8} (hf : Acts f mask op) {x : Nat}
    (hx : x < w) (p : Nat) (b : Bitmap) :
    Paints w op (fun u v => u = x ∧ v / 8 = p ∧ mask.getLsbD (v % 8) = true) b
      (b.modify (x + p * w) f) := by
  intro u hu v
  rw [pixel_modify hx hu]
  have hbit := hf (b (x + p * w)) (v % 8) (Nat.mod_lt v (by decide))
  constructor
  · rintro ⟨rfl, rfl, hm⟩
    rw [if_pos ⟨rfl, rfl⟩, hbit, if_pos hm]
    rfl
  · intro hn
    by_cases h : u = x ∧ v / 8 = p
    · obtain ⟨rfl, rfl⟩ := h
      rw [if_pos ⟨rfl, rfl⟩, hbit, if_neg fun hm => hn ⟨rfl, rfl, hm⟩]
      rfl
    · rw [if_neg h]

end

end Bitmap
