import Mathlib.Logic.Basic
import Mathlib.Tactic.TypeStar

/-!
# Calls that may wait for ever

`Call σ α` is a program over a state `σ` that returns an `α`, or never returns (`none`).
`Returns m s Q` is its total correctness from `s`: it returns, and the result and the state have
`Q`. There is one rule for each way to build a call; a loop over a list carries an invariant of the
items done so far (`returns_forM`, `returns_foldlM`), and `focus` runs a call on a part of the
state.
-/

universe u

abbrev Call (σ α : Type u) : Type u := StateT σ Option α

namespace Call

variable {σ τ α β : Type u}

/-- Waits for ever. -/
def wait : Call σ α := fun _ => none

/-- A call on a part of the state. -/
def focus (get : σ → τ) (set : τ → σ → σ) (m : Call τ α) : Call σ α := fun s =>
  (m (get s)).map fun r => (r.1, set r.2 s)

def Returns (m : Call σ α) (s : σ) (Q : α → σ → Prop) : Prop := ∃ a t, m s = some (a, t) ∧ Q a t

variable {s : σ} {Q R : α → σ → Prop}

theorem Returns.mono {m : Call σ α} (h : Returns m s R) (hQ : ∀ a t, R a t → Q a t) :
    Returns m s Q := by
  obtain ⟨a, t, hm, hR⟩ := h
  exact ⟨a, t, hm, hQ a t hR⟩

/-- What two proofs say of one call. -/
theorem Returns.and {m : Call σ α} (hQ : Returns m s Q) (hR : Returns m s R) :
    Returns m s fun a t => Q a t ∧ R a t := by
  obtain ⟨a, t, hm, hQ⟩ := hQ
  obtain ⟨b, u, hm', hR⟩ := hR
  obtain ⟨rfl, rfl⟩ := Prod.mk.inj (Option.some.inj (hm.symm.trans hm'))
  exact ⟨a, t, hm, hQ, hR⟩

theorem returns_pure {a : α} (h : Q a s) : Returns (pure a) s Q := ⟨a, s, rfl, h⟩

theorem returns_modify {f : σ → σ} {Q : PUnit → σ → Prop} (h : Q ⟨⟩ (f s)) :
    Returns (modify f : Call σ PUnit) s Q := ⟨⟨⟩, f s, rfl, h⟩

theorem Returns.bind {m : Call σ α} (h : Returns m s R) {f : α → Call σ β} {S : β → σ → Prop}
    (hf : ∀ a t, R a t → Returns (f a) t S) : Returns (m >>= f) s S := by
  obtain ⟨a, t, hm, hR⟩ := h
  obtain ⟨b, u, hb, hS⟩ := hf a t hR
  refine ⟨b, u, ?_, hS⟩
  change (m s).bind (fun r => f r.1 r.2) = some (b, u)
  rw [hm]
  exact hb

theorem returns_get {f : σ → Call σ α} (h : Returns (f s) s Q) : Returns (get >>= f) s Q := h

theorem Returns.discard {m : Call σ α} (h : Returns m s R) {Q : PUnit.{u + 1} → σ → Prop}
    (hQ : ∀ a t, R a t → Q ⟨⟩ t) : Returns (Functor.discard m) s Q := by
  obtain ⟨a, t, hm, hR⟩ := h
  refine ⟨⟨⟩, t, ?_, hQ a t hR⟩
  change (m s).bind (fun r => some (PUnit.unit, r.2)) = _
  rw [hm]
  rfl

theorem returns_focus {get : σ → τ} {set : τ → σ → σ} {m : Call τ α} {P : α → τ → Prop}
    (h : Returns m (get s) P) (hQ : ∀ a t, P a t → Q a (set t s)) :
    Returns (focus get set m) s Q := by
  obtain ⟨a, t, hm, hP⟩ := h
  refine ⟨a, set t s, ?_, hQ a t hP⟩
  unfold focus
  rw [hm]
  rfl

/-- `I done` holds behind the items `done`. -/
theorem returns_forM {f : β → Call σ PUnit} {I : List β → σ → Prop} {l : List β} (h : I [] s)
    (hstep : ∀ done b rest t, l = done ++ b :: rest → I done t →
      Returns (f b) t fun _ u => I (done ++ [b]) u) :
    Returns (l.forM f) s fun _ t => I l t := by
  have hall : ∀ rest done t, l = done ++ rest → I done t →
      Returns (rest.forM f) t fun _ u => I l u := by
    intro rest
    induction rest with
    | nil =>
      rintro done t rfl hI
      rw [List.append_nil]
      exact returns_pure hI
    | cons b rest ih =>
      intro done t hl hI
      change Returns (f b >>= fun _ => rest.forM f) t _
      refine (hstep done b rest t hl hI).bind fun _ u hu => ih (done ++ [b]) u ?_ hu
      rw [hl, List.append_assoc]
      rfl
  exact hall l [] s rfl h

theorem returns_foldlM {f : α → β → Call σ α} {I : List β → α → σ → Prop} {l : List β} {a : α}
    (h : I [] a s)
    (hstep : ∀ done b rest a t, l = done ++ b :: rest → I done a t →
      Returns (f a b) t fun a' u => I (done ++ [b]) a' u) :
    Returns (l.foldlM f a) s fun a' t => I l a' t := by
  have hall : ∀ rest done a t, l = done ++ rest → I done a t →
      Returns (rest.foldlM f a) t fun a' u => I l a' u := by
    intro rest
    induction rest with
    | nil =>
      rintro done a t rfl hI
      rw [List.append_nil]
      exact returns_pure hI
    | cons b rest ih =>
      intro done a t hl hI
      rw [List.foldlM_cons]
      refine (hstep done b rest a t hl hI).bind fun a' u hu => ih (done ++ [b]) a' u ?_ hu
      rw [hl, List.append_assoc]
      rfl
  exact hall l [] a s rfl h

end Call
