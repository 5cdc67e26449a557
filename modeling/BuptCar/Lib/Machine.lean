import Mathlib.Data.List.Induction

/-!
# Deterministic machines driven by a list of inputs

`Machine σ ι`: an initial state and a step function. `M.run is` is the state after the inputs
`is`, `M.runFrom s is` the same from `s`.

* `runFrom_invariant`: what every step preserves holds along every run; the step lemma may use
  that its input is one of the run's (`runFrom_invariant_mem`).
* `runFrom_unless`: a property that only steps of one kind end holds after a run without such a
  step.
* `labels_eq_nil_iff`: a run has no labelled step iff no step of it, at any split, is labelled;
  what unlabelled steps preserve holds after such a run (`run_invariant_unlabelled`).
* `run_history`: a relation between the state and two logs of the run that every step keeps.
* `runFrom_rel`: two runs on related inputs keep related states and give the same labels, if related
  steps do.
* `labelsFrom_congr`: related states of two machines give the same labels, if steps keep the
  relation.
* `Sim`, `Sim.run`: a machine `M` whose steps are labelled by inputs of an abstract machine `N`
  (unlabelled steps leave `N` where it is) is simulated along every run, `N` being driven by the
  labels `M.labels f is` of the run.
-/

universe u v w x

/-- A deterministic machine with states `σ` and inputs `ι`. -/
structure Machine (σ : Type u) (ι : Type v) where
  init : σ
  step : σ → ι → σ

namespace Machine

variable {σ : Type u} {ι : Type v} {τ : Type w} {κ : Type x}

/-- The state after the inputs `is`, from `s`. -/
def runFrom (M : Machine σ ι) (s : σ) (is : List ι) : σ := is.foldl M.step s

def run (M : Machine σ ι) (is : List ι) : σ := M.runFrom M.init is

section
variable (M : Machine σ ι)

@[simp] theorem runFrom_nil (s : σ) : M.runFrom s [] = s := rfl

@[simp] theorem runFrom_cons (s : σ) (i : ι) (is : List ι) :
    M.runFrom s (i :: is) = M.runFrom (M.step s i) is := rfl

theorem runFrom_append (s : σ) (is js : List ι) :
    M.runFrom s (is ++ js) = M.runFrom (M.runFrom s is) js := List.foldl_append

theorem runFrom_concat (s : σ) (is : List ι) (i : ι) :
    M.runFrom s (is ++ [i]) = M.step (M.runFrom s is) i := by
  rw [runFrom_append]; rfl

@[simp] theorem run_nil : M.run [] = M.init := rfl

theorem run_append (is js : List ι) : M.run (is ++ js) = M.runFrom (M.run is) js :=
  M.runFrom_append _ is js

theorem run_concat (is : List ι) (i : ι) : M.run (is ++ [i]) = M.step (M.run is) i :=
  M.runFrom_concat _ is i

end

/-! ## Invariants -/

section
variable {M : Machine σ ι} {P : σ → Prop}

/-- A property that every step on an input of the run preserves holds after the run. -/
theorem runFrom_invariant_mem {is : List ι} {s : σ} (hs : P s)
    (hstep : ∀ s, ∀ i ∈ is, P s → P (M.step s i)) : P (M.runFrom s is) := by
  induction is generalizing s with
  | nil => exact hs
  | cons i is ih =>
    exact ih (hstep s i List.mem_cons_self hs) fun s j hj => hstep s j (List.mem_cons_of_mem _ hj)

theorem runFrom_invariant (hstep : ∀ s i, P s → P (M.step s i)) {s : σ} (hs : P s)
    (is : List ι) : P (M.runFrom s is) :=
  runFrom_invariant_mem hs fun s i _ => hstep s i

theorem run_invariant (hinit : P M.init) (hstep : ∀ s i, P s → P (M.step s i)) (is : List ι) :
    P (M.run is) :=
  runFrom_invariant hstep hinit is

/-- A property that only steps with `Q` end: after a run it still holds, or one of the steps
had `Q`. -/
theorem runFrom_unless {Q : σ → ι → Prop} (hstep : ∀ s i, P s → P (M.step s i) ∨ Q s i) {s : σ}
    (hs : P s) (is : List ι) :
    P (M.runFrom s is) ∨ ∃ pre i post, is = pre ++ i :: post ∧ Q (M.runFrom s pre) i := by
  induction is generalizing s with
  | nil => exact .inl hs
  | cons i is ih =>
    rcases hstep s i hs with hp | hq
    · rcases ih hp with h | ⟨pre, j, post, rfl, hj⟩
      · exact .inl h
      · exact .inr ⟨i :: pre, j, post, rfl, hj⟩
    · exact .inr ⟨[], i, is, rfl, hq⟩

end

/-! ## Labels and simulation -/

section
variable (M : Machine σ ι) (f : σ → ι → Option κ)

/-- The labels of the steps of a run from `s`. -/
def labelsFrom (s : σ) : List ι → List κ
  | [] => []
  | i :: is => (f s i).toList ++ labelsFrom (M.step s i) is

def labels (is : List ι) : List κ := M.labelsFrom f M.init is

theorem labelsFrom_append (s : σ) (is js : List ι) :
    M.labelsFrom f s (is ++ js) = M.labelsFrom f s is ++ M.labelsFrom f (M.runFrom s is) js := by
  induction is generalizing s with
  | nil => rfl
  | cons i is ih => simp [labelsFrom, ih]

/-- No step of a run is labelled, split by split. -/
theorem labelsFrom_eq_nil_iff (s : σ) (is : List ι) : M.labelsFrom f s is = [] ↔
    ∀ pre i post, is = pre ++ i :: post → f (M.runFrom s pre) i = none := by
  induction is generalizing s with
  | nil => simp [labelsFrom]
  | cons i is ih =>
    rw [labelsFrom, List.append_eq_nil_iff, Option.toList_eq_nil_iff, ih]
    constructor
    · rintro ⟨h1, h2⟩ pre j post heq
      cases pre with
      | nil =>
        simp only [List.nil_append, List.cons.injEq] at heq
        obtain ⟨rfl, -⟩ := heq
        exact h1
      | cons k pre =>
        simp only [List.cons_append, List.cons.injEq] at heq
        obtain ⟨rfl, heq⟩ := heq
        exact h2 pre j post heq
    · intro h
      exact ⟨h [] i is rfl, fun pre j post heq => h (i :: pre) j post (by rw [heq]; rfl)⟩

theorem labels_eq_nil_iff (is : List ι) : M.labels f is = [] ↔
    ∀ pre i post, is = pre ++ i :: post → f (M.run pre) i = none :=
  M.labelsFrom_eq_nil_iff f _ is

/-- Two labellings that agree at every split of a run give the same labels. -/
theorem labelsFrom_eq_of {g : σ → ι → Option κ} (s : σ) {is : List ι}
    (h : ∀ pre i post, is = pre ++ i :: post → f (M.runFrom s pre) i = g (M.runFrom s pre) i) :
    M.labelsFrom f s is = M.labelsFrom g s is := by
  induction is generalizing s with
  | nil => rfl
  | cons i is ih =>
    have hhead : f s i = g s i := h [] i is rfl
    have htail := ih (M.step s i) fun pre j post heq =>
      h (i :: pre) j post (congrArg (i :: ·) heq)
    rw [labelsFrom, labelsFrom, hhead, htail]

/-- Where every step on an input of the run keeps `P` and has the label `k`, so have all. -/
theorem labelsFrom_eq_replicate {M : Machine σ ι} {f : σ → ι → Option κ} {P : σ → Prop} {k : κ}
    {s : σ} {is : List ι} (hs : P s)
    (hstep : ∀ s, ∀ i ∈ is, P s → P (M.step s i) ∧ f s i = some k) :
    M.labelsFrom f s is = List.replicate is.length k := by
  induction is generalizing s with
  | nil => rfl
  | cons i is ih =>
    obtain ⟨hnext, hlabel⟩ := hstep s i List.mem_cons_self hs
    rw [labelsFrom, hlabel, ih hnext fun s j hj => hstep s j (List.mem_cons_of_mem _ hj)]
    rfl

theorem labels_append (is js : List ι) :
    M.labels f (is ++ js) = M.labels f is ++ M.labelsFrom f (M.run is) js :=
  M.labelsFrom_append f _ is js

theorem labels_concat (is : List ι) (i : ι) :
    M.labels f (is ++ [i]) = M.labels f is ++ (f (M.run is) i).toList := by
  rw [labels, labelsFrom_append]
  simp [labelsFrom, labels, run]

end

/-- A relation between the state and two logs of the run, kept by every step on an input of the
run. -/
theorem run_history {κ' : Type*} {M : Machine σ ι} {f : σ → ι → Option κ} {g : σ → ι → Option κ'}
    {P : σ → List κ → List κ' → Prop} {is : List ι} (hinit : P M.init [] [])
    (hstep : ∀ s, ∀ i ∈ is, ∀ as bs, P s as bs →
      P (M.step s i) (as ++ (f s i).toList) (bs ++ (g s i).toList)) :
    P (M.run is) (M.labels f is) (M.labels g is) := by
  induction is using List.reverseRecOn with
  | nil => exact hinit
  | append_singleton is i ih =>
    rw [run_concat, labels_concat, labels_concat]
    exact hstep _ i (by simp) _ _
      (ih fun s j hj => hstep s j (List.mem_append_left _ hj))

/-- Two runs on inputs related one by one, the first with steps that satisfy `C`: where such steps
keep states related and are labelled alike, so are the runs. -/
theorem runFrom_rel {ι' : Type*} {M : Machine σ ι} {N : Machine τ ι'} {f : σ → ι → Option κ}
    {g : τ → ι' → Option κ} {R : σ → τ → Prop} {C : σ → ι → Prop} {Q : ι → ι' → Prop}
    (hstep : ∀ s t i j, R s t → C s i → Q i j → R (M.step s i) (N.step t j) ∧ f s i = g t j)
    {s : σ} {t : τ} (h : R s t) {is : List ι} {js : List ι'} (hij : List.Forall₂ Q is js)
    (hC : ∀ pre i post, is = pre ++ i :: post → C (M.runFrom s pre) i) :
    R (M.runFrom s is) (N.runFrom t js) ∧ M.labelsFrom f s is = N.labelsFrom g t js := by
  induction hij generalizing s t with
  | nil => exact ⟨h, rfl⟩
  | @cons i j is js hq _ ih =>
    obtain ⟨hR, hlabel⟩ := hstep s t i j h (hC [] i is rfl) hq
    obtain ⟨hrun, hlabels⟩ := ih hR fun pre k post heq =>
      hC (i :: pre) k post (congrArg (i :: ·) heq)
    refine ⟨hrun, ?_⟩
    rw [labelsFrom, labelsFrom, hlabel, hlabels]

/-- What the steps of two machines on the same input keep, their runs keep. -/
theorem runFrom_congr_mem {M : Machine σ ι} {N : Machine τ ι} {R : σ → τ → Prop} {is : List ι}
    (hstep : ∀ s t, ∀ i ∈ is, R s t → R (M.step s i) (N.step t i)) {s : σ} {t : τ} (h : R s t) :
    R (M.runFrom s is) (N.runFrom t is) := by
  induction is generalizing s t with
  | nil => exact h
  | cons i is ih =>
    exact ih (fun s t j hj => hstep s t j (List.mem_cons_of_mem _ hj))
      (hstep s t i List.mem_cons_self h)

theorem runFrom_congr {M : Machine σ ι} {N : Machine τ ι} {R : σ → τ → Prop}
    (hstep : ∀ s t i, R s t → R (M.step s i) (N.step t i)) {s : σ} {t : τ} (h : R s t)
    (is : List ι) : R (M.runFrom s is) (N.runFrom t is) :=
  runFrom_congr_mem (fun s t i _ => hstep s t i) h

/-- States that give the same labels, and are led by steps to such states again, give the same
labels for ever. -/
theorem labelsFrom_congr {M : Machine σ ι} {N : Machine τ ι} {f : σ → ι → Option κ}
    {g : τ → ι → Option κ} {R : σ → τ → Prop} (hlabel : ∀ s t i, R s t → f s i = g t i)
    (hstep : ∀ s t i, R s t → R (M.step s i) (N.step t i)) {s : σ} {t : τ} (h : R s t)
    (is : List ι) : M.labelsFrom f s is = N.labelsFrom g t is := by
  induction is generalizing s t with
  | nil => rfl
  | cons i is ih => rw [labelsFrom, labelsFrom, hlabel s t i h, ih (hstep s t i h)]

/-- A property that every unlabelled step preserves holds after a run without labels. -/
theorem run_invariant_unlabelled {M : Machine σ ι} {f : σ → ι → Option κ} {P : σ → Prop}
    (hinit : P M.init) (hstep : ∀ s i, f s i = none → P s → P (M.step s i)) {is : List ι}
    (h : M.labels f is = []) : P (M.run is) := by
  induction is using List.reverseRecOn with
  | nil => exact hinit
  | append_singleton is i ih =>
    rw [labels_concat, List.append_eq_nil_iff, Option.toList_eq_nil_iff] at h
    rw [run_concat]
    exact hstep _ i h.2 (ih h.1)

/-- `M` is simulated by `N` through `R`: a step of `M` labelled `k` is the step `k` of `N`, an
unlabelled one leaves `N` where it is. -/
structure Sim (M : Machine σ ι) (N : Machine τ κ) (f : σ → ι → Option κ) (R : σ → τ → Prop) :
    Prop where
  init : R M.init N.init
  step : ∀ s t i, R s t → R (M.step s i) (N.runFrom t (f s i).toList)

/-- From related states, a run of `M` is simulated by the run of `N` on its labels. -/
theorem Sim.runFrom {M : Machine σ ι} {N : Machine τ κ} {f : σ → ι → Option κ} {R : σ → τ → Prop}
    (h : Sim M N f R) {s : σ} {t : τ} (hst : R s t) (is : List ι) :
    R (M.runFrom s is) (N.runFrom t (M.labelsFrom f s is)) := by
  induction is generalizing s t with
  | nil => exact hst
  | cons i is ih =>
    rw [labelsFrom, runFrom_append]
    exact ih (h.step s t i hst)

theorem Sim.run {M : Machine σ ι} {N : Machine τ κ} {f : σ → ι → Option κ} {R : σ → τ → Prop}
    (h : Sim M N f R) (is : List ι) : R (M.run is) (N.run (M.labels f is)) :=
  h.runFrom h.init is

end Machine
