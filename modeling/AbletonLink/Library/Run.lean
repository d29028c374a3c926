import Mathlib.Tactic

/-! Finite runs of a deterministic step function whose inputs carry every outside choice. -/

universe u v w

namespace AbletonLink.Library.Run

variable {State : Type u} {Op : Type v} {step : State → Op → State}

def run (step : State → Op → State) (s : State) (ops : List Op) : State := ops.foldl step s

@[simp] theorem run_nil (s : State) : run step s [] = s := rfl

@[simp] theorem run_cons (s : State) (op : Op) (ops : List Op) :
    run step s (op :: ops) = run step (step s op) ops := rfl

theorem run_append (s : State) (ops ops' : List Op) :
    run step s (ops ++ ops') = run step (run step s ops) ops' := List.foldl_append

def Along (step : State → Op → State) (P : State → Op → Prop) : State → List Op → Prop
  | _, [] => True
  | s, op :: ops => P s op ∧ Along step P (step s op) ops

instance decidableAlong {P : State → Op → Prop} [∀ s op, Decidable (P s op)] :
    ∀ s ops, Decidable (Along step P s ops)
  | _, [] => inferInstanceAs (Decidable True)
  | s, op :: ops => @instDecidableAnd _ _ _ (decidableAlong (step s op) ops)

theorem along_of_forall {P : State → Op → Prop} (h : ∀ s op, P s op) (s : State)
    (ops : List Op) : Along step P s ops := by
  induction ops generalizing s with
  | nil => trivial
  | cons op ops ih => exact ⟨h s op, ih _⟩

theorem along_of_mem {P : Op → Prop} {ops : List Op} (h : ∀ op ∈ ops, P op) (s : State) :
    Along step (fun _ op => P op) s ops := by
  induction ops generalizing s with
  | nil => trivial
  | cons op ops ih =>
    obtain ⟨here, rest⟩ := List.forall_mem_cons.mp h
    exact ⟨here, ih rest _⟩

theorem along_append {P : State → Op → Prop} {s : State} {ops ops' : List Op} :
    Along step P s (ops ++ ops') ↔ Along step P s ops ∧ Along step P (run step s ops) ops' := by
  induction ops generalizing s with
  | nil => exact ⟨fun along => ⟨trivial, along⟩, fun along => along.2⟩
  | cons op ops ih =>
    show _ ∧ Along step P _ (ops ++ ops') ↔ (_ ∧ _) ∧ _
    rw [ih, and_assoc]
    rfl

theorem along_iff {P : State → Op → Prop} {s : State} {ops : List Op} :
    Along step P s ops ↔ ∀ before op after, ops = before ++ op :: after →
      P (run step s before) op := by
  constructor
  · rintro along before op after rfl
    exact (along_append.mp along).2.1
  · intro each
    induction ops generalizing s with
    | nil => trivial
    | cons op ops ih =>
      refine ⟨each [] op ops rfl, ih fun before later after split => ?_⟩
      exact each (op :: before) later after (congrArg (op :: ·) split)

theorem along_and {P Q : State → Op → Prop} {s : State} {ops : List Op} :
    Along step (fun s op => P s op ∧ Q s op) s ops ↔ Along step P s ops ∧ Along step Q s ops := by
  induction ops generalizing s with
  | nil => exact ⟨fun _ => ⟨trivial, trivial⟩, fun _ => trivial⟩
  | cons op ops ih =>
    show (_ ∧ _) ∧ Along step _ _ ops ↔ (_ ∧ _) ∧ (_ ∧ _)
    rw [ih, and_and_and_comm]

theorem run_invariant {P : State → Op → Prop} {I : State → Prop}
    (keep : ∀ s op, I s → P s op → I (step s op)) {s : State} {ops : List Op}
    (start : I s) (along : Along step P s ops) : I (run step s ops) := by
  induction ops generalizing s with
  | nil => exact start
  | cons op ops ih => exact ih (keep s op start along.1) along.2

theorem run_keeps {I : State → Prop} (keep : ∀ s op, I s → I (step s op)) {s : State}
    (ops : List Op) (start : I s) : I (run step s ops) :=
  run_invariant (P := fun _ _ => True) (fun s op h _ => keep s op h) start
    (along_of_forall (fun _ _ => trivial) s ops)

theorem run_relates {P : State → Op → Prop} {R : State → State → Prop} (refl : ∀ s, R s s)
    (trans : ∀ {a b c}, R a b → R b c → R a c) (each : ∀ s op, P s op → R s (step s op))
    {s : State} {ops : List Op} (along : Along step P s ops) : R s (run step s ops) := by
  induction ops generalizing s with
  | nil => exact refl s
  | cons op ops ih => exact trans (each s op along.1) (ih along.2)

/-- If, beside an invariant `A`, a property survives a step exactly when the step satisfies `P`,
then it holds all along a run exactly when every step does. -/
theorem prefix_iff_along {P : State → Op → Prop} {A G : State → Prop}
    (keep : ∀ s op, A s → A (step s op))
    (exact_step : ∀ s op, A s → G s → (G (step s op) ↔ P s op)) {s : State}
    (aux : A s) (start : G s) (ops : List Op) :
    (∀ before, before <+: ops → G (run step s before)) ↔ Along step P s ops := by
  induction ops generalizing s with
  | nil =>
    refine ⟨fun _ => trivial, fun _ before hb => ?_⟩
    rw [List.prefix_nil.mp hb]
    exact start
  | cons op ops ih =>
    constructor
    · intro all
      have next : G (step s op) := all [op] (List.prefix_append [op] ops)
      refine ⟨(exact_step s op aux start).mp next, (ih (keep s op aux) next).mp ?_⟩
      intro before hb
      exact all (op :: before) (List.cons_prefix_cons.mpr ⟨rfl, hb⟩)
    · rintro ⟨here, rest⟩ before hb
      have next := (exact_step s op aux start).mpr here
      cases before with
      | nil => exact start
      | cons op' before =>
        obtain ⟨rfl, shorter⟩ := List.cons_prefix_cons.mp hb
        exact (ih (keep s op' aux) next).mpr rest before shorter

/-- A property that every step keeps, unless it does something else, holds at the end of a run or
some operation of the run did that. -/
theorem run_keeps_or {I : State → Prop} {E : State → Op → Prop}
    (keep : ∀ s op, I s → E s op ∨ I (step s op)) {s : State} (start : I s) (ops : List Op) :
    (∃ before op after, ops = before ++ op :: after ∧ E (run step s before) op) ∨
      I (run step s ops) := by
  induction ops generalizing s with
  | nil => exact .inr start
  | cons op ops ih =>
    rcases keep s op start with event | kept
    · exact .inl ⟨[], op, ops, rfl, event⟩
    · rcases ih kept with ⟨before, later, after, rfl, event⟩ | kept
      · exact .inl ⟨op :: before, later, after, rfl, event⟩
      · exact .inr kept

section Logged

variable {β : Type w} {record : State → Op → List β} {s : State}

def logged (step : State → Op → State) (record : State → Op → List β) : State → List Op → List β
  | _, [] => []
  | s, op :: ops => record s op ++ logged step record (step s op) ops

@[simp] theorem logged_nil : logged step record s [] = [] := rfl

theorem logged_append (ops ops' : List Op) :
    logged step record s (ops ++ ops') =
      logged step record s ops ++ logged step record (run step s ops) ops' := by
  induction ops generalizing s with
  | nil => rfl
  | cons op ops ih => simp only [List.cons_append, logged, ih, List.append_assoc, run_cons]

theorem logged_concat (ops : List Op) (op : Op) :
    logged step record s (ops ++ [op]) =
      logged step record s ops ++ record (run step s ops) op := by
  rw [logged_append, logged, logged, List.append_nil]

theorem mem_logged {ops : List Op} {b : β} :
    b ∈ logged step record s ops ↔
      ∃ before op after, ops = before ++ op :: after ∧ b ∈ record (run step s before) op := by
  induction ops generalizing s with
  | nil => simp [logged]
  | cons first ops ih =>
    rw [logged, List.mem_append, ih]
    constructor
    · rintro (here | ⟨before, op, after, rfl, mem⟩)
      · exact ⟨[], first, ops, rfl, here⟩
      · exact ⟨first :: before, op, after, rfl, mem⟩
    · rintro ⟨before, op, after, split, mem⟩
      cases before with
      | nil =>
        obtain ⟨rfl, rfl⟩ := List.cons.inj split
        exact .inl mem
      | cons first' before =>
        obtain ⟨rfl, rfl⟩ := List.cons.inj split
        exact .inr ⟨before, op, after, rfl, mem⟩

theorem run_logged {I : List β → State → Prop} {P : State → Op → Prop}
    (keep : ∀ past s op, I past s → P s op → I (past ++ record s op) (step s op)) {past : List β}
    {ops : List Op} (start : I past s) (along : Along step P s ops) :
    I (past ++ logged step record s ops) (run step s ops) := by
  induction ops generalizing s past with
  | nil => simpa using start
  | cons op ops ih =>
    rw [logged, ← List.append_assoc]
    exact ih (keep past s op start along.1) along.2

end Logged

def Since (step : State → Op → State) (start stop : State → Op → Prop) (s : State)
    (ops : List Op) : Prop :=
  ∃ before op after, ops = before ++ op :: after ∧ start (run step s before) op ∧
    Along step (fun s op => ¬stop s op) (run step s (before ++ [op])) after

section Since

variable {start stop P : State → Op → Prop} {s : State}

theorem along_concat {op : Op} {ops : List Op} :
    Along step P s (ops ++ [op]) ↔ Along step P s ops ∧ P (run step s ops) op := by
  induction ops generalizing s with
  | nil => exact ⟨fun along => ⟨trivial, along.1⟩, fun along => ⟨along.2, trivial⟩⟩
  | cons first ops ih =>
    show _ ∧ Along step P _ (ops ++ [op]) ↔ (_ ∧ _) ∧ _
    rw [ih, and_assoc]
    rfl

theorem since_concat {op : Op} {ops : List Op} :
    Since step start stop s (ops ++ [op]) ↔
      start (run step s ops) op ∨
        Since step start stop s ops ∧ ¬stop (run step s ops) op := by
  constructor
  · rintro ⟨before, first, after, split, started, along⟩
    rcases List.eq_nil_or_concat after with rfl | ⟨after, last, rfl⟩
    · obtain ⟨rfl, here⟩ := List.append_inj' split rfl
      cases here
      exact .inl started
    · rw [List.concat_eq_append, ← List.cons_append, ← List.append_assoc] at split
      obtain ⟨rfl, here⟩ := List.append_inj' split rfl
      cases here
      rw [List.concat_eq_append] at along
      obtain ⟨along, runs⟩ := along_concat.mp along
      rw [← run_append, List.append_assoc] at runs
      exact .inr ⟨⟨before, first, after, rfl, started, along⟩, runs⟩
  · rintro (started | ⟨⟨before, first, after, rfl, started, along⟩, runs⟩)
    · exact ⟨ops, op, [], rfl, started, trivial⟩
    · refine ⟨before, first, after ++ [op], by simp, started, along_concat.mpr ⟨along, ?_⟩⟩
      rwa [← run_append, List.append_assoc]

/-- What each step makes true by starting it and false by stopping it holds as long as it was
started and not stopped since. -/
theorem since_iff {I G : State → Prop} (keep : ∀ s op, I s → I (step s op))
    (exact_step : ∀ s op, I s → (G (step s op) ↔ start s op ∨ G s ∧ ¬stop s op)) (inv : I s)
    (none : ¬G s) (ops : List Op) : G (run step s ops) ↔ Since step start stop s ops := by
  induction ops using List.reverseRecOn with
  | nil =>
    refine iff_of_false none ?_
    rintro ⟨before, op, after, split, -⟩
    exact List.append_ne_nil_of_right_ne_nil before (List.cons_ne_nil op after) split.symm
  | append_singleton ops op ih =>
    rw [since_concat, ← ih, run_append]
    exact exact_step _ op (run_keeps keep ops inv)

end Since

end AbletonLink.Library.Run
