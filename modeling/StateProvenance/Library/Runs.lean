import Mathlib.Tactic

/-! Runs of a step function over a list of events, and conditions on every step of a run. -/

namespace StateProvenance.Library.Runs

variable {S E : Type} (step : S → E → S)

def run : S → List E → S := List.foldl step

def Along (P : S → E → Prop) : S → List E → Prop
  | _, [] => True
  | s, e :: es => P s e ∧ Along P (step s e) es

def Always (Q : S → Prop) : S → List E → Prop
  | s, [] => Q s
  | s, e :: es => Q s ∧ Always Q (step s e) es

section Along

variable {step} {P C : S → E → Prop} {s : S}

@[simp] lemma run_nil : run step s [] = s := rfl

@[simp] lemma run_cons (e : E) (es : List E) : run step s (e :: es) = run step (step s e) es := rfl

instance instDecidableAlong [∀ s e, Decidable (P s e)] : ∀ s es, Decidable (Along step P s es)
  | _, [] => isTrue trivial
  | s, e :: es =>
    match (inferInstance : Decidable (P s e)), instDecidableAlong (step s e) es with
    | isTrue h, isTrue hs => isTrue ⟨h, hs⟩
    | isFalse h, _ => isFalse fun hboth => h hboth.1
    | _, isFalse hs => isFalse fun hboth => hs hboth.2

lemma run_append (es fs : List E) : run step s (es ++ fs) = run step (run step s es) fs :=
  List.foldl_append

@[simp] lemma along_nil : Along step P s [] := trivial

@[simp] lemma along_cons (e : E) (es : List E) :
    Along step P s (e :: es) ↔ P s e ∧ Along step P (step s e) es := Iff.rfl

@[simp] lemma always_nil (Q : S → Prop) : Always step Q s [] ↔ Q s := Iff.rfl

@[simp] lemma always_cons (Q : S → Prop) (e : E) (es : List E) :
    Always step Q s (e :: es) ↔ Q s ∧ Always step Q (step s e) es := Iff.rfl

lemma along_append (es fs : List E) :
    Along step P s (es ++ fs) ↔ Along step P s es ∧ Along step P (run step s es) fs := by
  induction es generalizing s with
  | nil => simp
  | cons e es ih => rw [List.cons_append, along_cons, along_cons, ih, run_cons, and_assoc]

lemma along_and {Q : S → E → Prop} {es : List E} :
    Along step (fun s e => P s e ∧ Q s e) s es ↔ Along step P s es ∧ Along step Q s es := by
  induction es generalizing s with
  | nil => simp
  | cons e es ih =>
    rw [along_cons, along_cons, along_cons, ih]
    exact and_and_and_comm

lemma run_keeps {Inv : S → Prop} (hstep : ∀ s e, Inv s → Inv (step s e)) (hs : Inv s) (es : List E) :
    Inv (run step s es) := by
  induction es generalizing s with
  | nil => exact hs
  | cons e es ih => exact ih (hstep s e hs)

variable {Inv : S → Prop} (hstep : ∀ s e, Inv s → C s e → Inv (step s e))

include hstep

lemma run_invariant {es : List E} (hs : Inv s) (h : Along step C s es) : Inv (run step s es) := by
  induction es generalizing s with
  | nil => exact hs
  | cons e es ih => exact ih (hstep s e hs h.1) h.2

lemma along_of_invariant (hP : ∀ s e, Inv s → C s e → P s e) {es : List E} (hs : Inv s)
    (h : Along step C s es) : Along step P s es := by
  induction es generalizing s with
  | nil => trivial
  | cons e es ih => exact ⟨hP s e hs h.1, ih (hstep s e hs h.1) h.2⟩

end Along

section Since

/-- Some step meets `P`, and the state after it and all later ones meet `Q`. -/
def Since (P : S → E → Prop) (Q : S → Prop) : S → List E → Prop
  | _, [] => False
  | s, e :: es => P s e ∧ Always step Q (step s e) es ∨ Since P Q (step s e) es

variable {step} {P P' : S → E → Prop} {Q : S → Prop} {s : S}

lemma Always.last {es : List E} (h : Always step Q s es) : Q (run step s es) := by
  induction es generalizing s with
  | nil => exact h
  | cons e es ih => exact ih h.2

lemma always_append (es fs : List E) :
    Always step Q s (es ++ fs) ↔ Always step Q s es ∧ Always step Q (run step s es) fs := by
  induction es generalizing s with
  | nil =>
    cases fs with
    | nil => simp
    | cons f fs => exact ⟨fun h => ⟨h.1, h⟩, And.right⟩
  | cons e es ih => rw [List.cons_append, always_cons, always_cons, ih, run_cons, and_assoc]

lemma always_concat (es : List E) (e : E) :
    Always step Q s (es ++ [e]) ↔ Always step Q s es ∧ Q (run step s (es ++ [e])) := by
  rw [always_append, always_cons, always_nil, run_append]
  constructor
  · rintro ⟨h, -, hlast⟩
    exact ⟨h, hlast⟩
  · rintro ⟨h, hlast⟩
    exact ⟨h, h.last, hlast⟩

lemma since_concat (es : List E) (e : E) : Since step P Q s (es ++ [e]) ↔
    (P (run step s es) e ∨ Since step P Q s es) ∧ Q (run step s (es ++ [e])) := by
  induction es generalizing s with
  | nil => simp [Since]
  | cons e' es ih =>
    rw [List.cons_append, Since, ih, always_concat, Since, run_cons, run_cons]
    tauto

lemma Since.mono (hP : ∀ s e, P s e → P' s e) {es : List E} (h : Since step P Q s es) : Since step P' Q s es := by
  induction es generalizing s with
  | nil => exact h
  | cons e es ih => exact h.imp (And.imp_left (hP s e)) ih

lemma Since.after {es fs : List E} (h : Since step P Q s (es ++ fs)) (hQ : ¬ Q (run step s es)) :
    Since step P Q (run step s es) fs := by
  induction es generalizing s with
  | nil => exact h
  | cons e es ih =>
    rcases h with ⟨-, h⟩ | h
    · exact absurd ((always_append es _).mp h).1.last hQ
    · exact ih h hQ

variable {Inv K : S → Prop} (hInv : ∀ s e, Inv s → Inv (step s e))

include hInv

lemma Since.exists {es : List E} (h : Since step P Q s es) (hs : Inv s) : ∃ t e, Inv t ∧ P t e := by
  induction es generalizing s with
  | nil => exact h.elim
  | cons e es ih =>
    rcases h with ⟨h, -⟩ | h
    · exact ⟨s, e, hs, h⟩
    · exact ih h (hInv s e hs)

lemma Since.brings {es : List E} (h : Since step P Q s es) (hs : Inv s)
    (hP : ∀ s e, Inv s → P s e → K (step s e)) (hK : ∀ s e, Inv s → K s → K (step s e)) : K (run step s es) := by
  induction es generalizing s with
  | nil => exact h.elim
  | cons e es ih =>
    have hnext := hInv s e hs
    rcases h with ⟨h, -⟩ | h
    · have hboth : ∀ t e, Inv t ∧ K t → Inv (step t e) ∧ K (step t e) := fun t e ht =>
        ⟨hInv t e ht.1, hK t e ht.1 ht.2⟩
      exact (run_keeps hboth ⟨hnext, hP s e hs h⟩ es).2
    · exact ih h hnext

end Since

section Observe

variable {A : Type} (see : S → E → Option A)

def observe : S → List E → List A
  | _, [] => []
  | s, e :: es => (see s e).toList ++ observe (step s e) es

variable {step see}

lemma observe_append (s : S) (es fs : List E) :
    observe step see s (es ++ fs) = observe step see s es ++ observe step see (run step s es) fs := by
  induction es generalizing s with
  | nil => rfl
  | cons e es ih => rw [List.cons_append, observe, observe, ih, run_cons, List.append_assoc]

lemma observe_eq_append {s : S} {es : List E} {as bs : List A} (h : observe step see s es = as ++ bs) :
    ∃ fs gs, es = fs ++ gs ∧ observe step see s fs = as ∧ observe step see (run step s fs) gs = bs := by
  induction es generalizing s as with
  | nil =>
    obtain ⟨rfl, rfl⟩ := List.append_eq_nil_iff.mp h.symm
    exact ⟨[], [], rfl, rfl, rfl⟩
  | cons e es ih =>
    cases as with
    | nil => exact ⟨[], e :: es, rfl, rfl, h⟩
    | cons a as =>
      cases hsee : see s e with
      | none =>
        rw [observe, hsee] at h
        obtain ⟨fs, gs, rfl, hfs, hgs⟩ := ih h
        refine ⟨e :: fs, gs, rfl, ?_, hgs⟩
        rw [observe, hsee, hfs]
        rfl
      | some b =>
        rw [observe, hsee] at h
        obtain ⟨rfl, hrest⟩ := List.cons.inj h
        obtain ⟨fs, gs, rfl, hfs, hgs⟩ := ih hrest
        refine ⟨e :: fs, gs, rfl, ?_, hgs⟩
        rw [observe, hsee, hfs]
        rfl

lemma observe_invariant {Inv : S → List A → Prop} {C : S → E → Prop}
    (hstep : ∀ s seen e, Inv s seen → C s e → Inv (step s e) (seen ++ (see s e).toList)) {s : S} {seen : List A}
    {es : List E} (hs : Inv s seen) (h : Along step C s es) :
    Inv (run step s es) (seen ++ observe step see s es) := by
  induction es generalizing s seen with
  | nil =>
    rw [observe, List.append_nil]
    exact hs
  | cons e es ih =>
    rw [observe, ← List.append_assoc]
    exact ih (hstep s seen e hs h.1) h.2

end Observe

section Answers

variable {A T : Type}

def answers (step : S → E → A × S) : S → List E → List A
  | _, [] => []
  | s, e :: es => (step s e).1 :: answers step (step s e).2 es

lemma answers_eq {step : S → E → A × S} {step' : T → E → A × T} {R : S → T → Prop} {C : T → E → Prop}
    (hstep : ∀ s t e, R s t → C t e → (step s e).1 = (step' t e).1 ∧ R (step s e).2 (step' t e).2) {s : S} {t : T}
    {es : List E} (hst : R s t) (h : Along (fun t e => (step' t e).2) C t es) :
    answers step s es = answers step' t es := by
  induction es generalizing s t with
  | nil => rfl
  | cons e es ih =>
    obtain ⟨hanswer, hnext⟩ := hstep s t e hst h.1
    rw [answers, answers, hanswer, ih hnext h.2]

end Answers

end StateProvenance.Library.Runs
