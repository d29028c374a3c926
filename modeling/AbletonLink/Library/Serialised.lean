import AbletonLink.Library.Run

/-! Calls that try for one lock, give up if it is taken and go from place to place while they have
it.  The data they work on is also changed from outside. -/

universe u v w x y z

namespace AbletonLink.Library

inductive CallAt (Waiting : Type u) (Place : Type v)
  | idle
  | waiting (call : Waiting)
  | holding (place : Place)
  deriving DecidableEq

structure Serialised (Data : Type u) (Call : Type v) (Waiting : Type w) (Place : Type x) where
  data : Data
  holder : Option Call
  calls : Call → CallAt Waiting Place

/-- `choice` is what the step of a call finds beside the data. -/
inductive SerialOp (Outside : Type u) (Call : Type v) (Waiting : Type w) (Choice : Type x)
  | outside (change : Outside)
  | call (call : Call) (waiting : Waiting)
  | step (call : Call) (choice : Choice)

/-- What a call does: where it starts once it has the lock, and its steps, the last of which drops
the lock. -/
structure Critical (Data : Type u) (Waiting : Type v) (Place : Type w) (Choice : Type x)
    (Outside : Type y) where
  outside : Data → Outside → Data
  enter : Waiting → Place
  act : Data → Choice → Place → Data × Option Place

namespace Serialised

variable {Data : Type u} {Call : Type v} {Waiting : Type w} {Place : Type x} {Choice : Type y}
  {Outside : Type z}

def place (s : Serialised Data Call Waiting Place) : Option Place :=
  s.holder.bind fun call =>
    match s.calls call with
    | .holding place => some place
    | _ => none

def Exclusive (s : Serialised Data Call Waiting Place) : Prop :=
  ∀ call, (∃ place, s.calls call = .holding place) ↔ s.holder = some call

variable [DecidableEq Call]

def at_ (s : Serialised Data Call Waiting Place) (call : Call) (place : CallAt Waiting Place) :
    Serialised Data Call Waiting Place :=
  { s with calls := Function.update s.calls call place }

variable (crit : Critical Data Waiting Place Choice Outside)

def stepCall (s : Serialised Data Call Waiting Place) (call : Call) (choice : Choice) :
    Serialised Data Call Waiting Place :=
  match s.calls call with
  | .idle => s
  | .waiting waiting =>
    match s.holder with
    | none => { s with holder := some call }.at_ call (.holding (crit.enter waiting))
    | some _ => s.at_ call .idle
  | .holding place =>
    match crit.act s.data choice place with
    | (data, some next) => { s with data }.at_ call (.holding next)
    | (data, none) => { s with data, holder := none }.at_ call .idle

def begin_ (s : Serialised Data Call Waiting Place) (call : Call) (waiting : Waiting) :
    Serialised Data Call Waiting Place :=
  match s.calls call with
  | .idle => s.at_ call (.waiting waiting)
  | _ => s

def step (s : Serialised Data Call Waiting Place) :
    SerialOp Outside Call Waiting Choice → Serialised Data Call Waiting Place
  | .outside change => { s with data := crit.outside s.data change }
  | .call call waiting => s.begin_ call waiting
  | .step call choice => s.stepCall crit call choice

def initial (data : Data) : Serialised Data Call Waiting Place where
  data := data
  holder := none
  calls := fun _ => .idle

variable {s : Serialised Data Call Waiting Place} {crit} {call : Call}

omit [DecidableEq Call] in
theorem Exclusive.holds (only : s.Exclusive) {place : Place}
    (here : s.calls call = .holding place) : s.holder = some call ∧ s.place = some place := by
  have holder := (only call).mp ⟨place, here⟩
  refine ⟨holder, ?_⟩
  unfold Serialised.place
  rw [holder, Option.bind_some, here]

omit [DecidableEq Call] in
theorem Exclusive.unique (only : s.Exclusive) {other : Call} {place place' : Place}
    (here : s.calls call = .holding place) (there : s.calls other = .holding place') :
    call = other := by
  have holder := (only.holds here).1
  rw [(only.holds there).1] at holder
  exact (Option.some.inj holder).symm

omit [DecidableEq Call] in
theorem place_eq_none (free : s.holder = none) : s.place = none := by
  unfold place
  rw [free, Option.bind_none]

theorem Exclusive.wait (only : s.Exclusive) (quiet : ∀ place, s.calls call ≠ .holding place)
    {next : CallAt Waiting Place} (still : ∀ place, next ≠ .holding place) :
    (s.at_ call next).Exclusive ∧ (s.at_ call next).place = s.place := by
  have apart : s.holder ≠ some call := fun holder =>
    ((only call).mpr holder).elim quiet
  constructor
  · intro other
    show (∃ place, Function.update s.calls call next other = _) ↔ s.holder = some other
    by_cases same : other = call
    · rw [same, Function.update_self]
      exact iff_of_false (fun ⟨place, here⟩ => still place here) apart
    · rw [Function.update_of_ne same]
      exact only other
  · show (s.holder.bind fun other => match Function.update s.calls call next other with
        | .holding place => some place
        | _ => none) = s.holder.bind _
    cases holder : s.holder with
    | none => rfl
    | some other =>
      have moved : other ≠ call := by
        rintro rfl
        exact apart holder
      rw [Option.bind_some, Option.bind_some, Function.update_of_ne moved]

theorem Exclusive.hold (only : s.Exclusive) (mine : ∀ other, s.holder = some other → other = call)
    (data : Data) (next : Place) :
    let s' := { s with data, holder := some call }.at_ call (.holding next)
    s'.Exclusive ∧ s'.place = some next := by
  have here : Function.update s.calls call (.holding next) call = .holding next :=
    Function.update_self ..
  have exclusive : ({ s with data, holder := some call }.at_ call (.holding next)).Exclusive := by
    intro other
    show (∃ place, Function.update s.calls call (.holding next) other = _) ↔
      some call = some other
    by_cases same : other = call
    · rw [same, here]
      exact iff_of_true ⟨next, rfl⟩ rfl
    · rw [Function.update_of_ne same]
      refine iff_of_false (fun held => same (mine other ((only other).mp held))) ?_
      exact fun eq => same (Option.some.inj eq).symm
  exact ⟨exclusive, (exclusive.holds here).2⟩

theorem Exclusive.leave (only : s.Exclusive) (holder : s.holder = some call) (data : Data) :
    ({ s with data, holder := none }.at_ call .idle).Exclusive := by
  intro other
  show (∃ place, Function.update s.calls call .idle other = _) ↔ none = some other
  by_cases same : other = call
  · rw [same, Function.update_self]
    exact iff_of_false nofun nofun
  · rw [Function.update_of_ne same]
    refine iff_of_false (fun held => same ?_) nofun
    have eq := (only other).mp held
    rw [holder] at eq
    exact (Option.some.inj eq).symm

/-- An invariant of the data and the place of the call with the lock. -/
structure Keeps (crit : Critical Data Waiting Place Choice Outside)
    (I : Data → Option Place → Prop) (admits : Data → Outside → Prop) : Prop where
  outside : ∀ data place change, I data place → admits data change →
    I (crit.outside data change) place
  enter : ∀ data waiting, I data none → I data (some (crit.enter waiting))
  act : ∀ data choice place, I data (some place) →
    I (crit.act data choice place).1 (crit.act data choice place).2

def Admits (admits : Data → Outside → Prop) (s : Serialised Data Call Waiting Place) :
    SerialOp Outside Call Waiting Choice → Prop
  | .outside change => admits s.data change
  | _ => True

instance {admits : Data → Outside → Prop} [∀ data change, Decidable (admits data change)]
    (s : Serialised Data Call Waiting Place) :
    DecidablePred (s.Admits admits : SerialOp Outside Call Waiting Choice → Prop)
  | .outside change => inferInstanceAs (Decidable (admits s.data change))
  | .call .. => inferInstanceAs (Decidable True)
  | .step .. => inferInstanceAs (Decidable True)

variable {I : Data → Option Place → Prop} {admits : Data → Outside → Prop}

theorem Keeps.stepCall (keeps : Keeps crit I admits) (only : s.Exclusive)
    (inv : I s.data s.place) (choice : Choice) :
    (s.stepCall crit call choice).Exclusive ∧
      I (s.stepCall crit call choice).data (s.stepCall crit call choice).place := by
  unfold Serialised.stepCall
  cases here : s.calls call with
  | idle => exact ⟨only, inv⟩
  | waiting waiting =>
    dsimp only
    cases free : s.holder with
    | none =>
      rw [place_eq_none free] at inv
      have mine : ∀ other, s.holder = some other → other = call := by
        rw [free]
        rintro _ ⟨⟩
      obtain ⟨exclusive, place⟩ := only.hold mine s.data (crit.enter waiting)
      refine ⟨exclusive, ?_⟩
      dsimp only at place ⊢
      rw [place]
      exact keeps.enter s.data waiting inv
    | some other =>
      have quiet : ∀ place, s.calls call ≠ .holding place := by
        rw [here]
        rintro _ ⟨⟩
      obtain ⟨exclusive, place⟩ :=
        only.wait quiet (show ∀ place, CallAt.idle ≠ .holding place by rintro _ ⟨⟩)
      dsimp only
      rw [place]
      exact ⟨exclusive, inv⟩
  | holding p =>
    obtain ⟨holder, place⟩ := only.holds here
    rw [place] at inv
    have next := keeps.act s.data choice p inv
    dsimp only
    revert next
    rcases crit.act s.data choice p with ⟨data, _ | after⟩
    · intro next
      have free : ({ s with data, holder := none }.at_ call .idle).place = none :=
        place_eq_none rfl
      refine ⟨only.leave holder data, ?_⟩
      dsimp only
      rw [free]
      exact next
    · intro next
      have mine : ∀ other, s.holder = some other → other = call := by
        rw [holder]
        exact fun other eq => (Option.some.inj eq).symm
      obtain ⟨exclusive, place⟩ := only.hold mine data after
      rw [← holder] at exclusive place
      refine ⟨exclusive, ?_⟩
      dsimp only at place ⊢
      rw [place]
      exact next

theorem begin_inv (only : s.Exclusive) (inv : I s.data s.place) {waiting : Waiting} :
    (s.begin_ call waiting).Exclusive ∧
      I (s.begin_ call waiting).data (s.begin_ call waiting).place := by
  unfold Serialised.begin_
  cases here : s.calls call with
  | idle =>
    have quiet : ∀ place, s.calls call ≠ .holding place := by
      rw [here]
      rintro _ ⟨⟩
    obtain ⟨exclusive, place⟩ :=
      only.wait quiet (show ∀ place, CallAt.waiting waiting ≠ .holding place by rintro _ ⟨⟩)
    dsimp only
    rw [place]
    exact ⟨exclusive, inv⟩
  | waiting other => exact ⟨only, inv⟩
  | holding place => exact ⟨only, inv⟩

theorem Keeps.step (keeps : Keeps crit I admits) (only : s.Exclusive) (inv : I s.data s.place)
    (op : SerialOp Outside Call Waiting Choice) (admitted : s.Admits admits op) :
    (s.step crit op).Exclusive ∧ I (s.step crit op).data (s.step crit op).place := by
  cases op with
  | outside change => exact ⟨only, keeps.outside s.data s.place change inv admitted⟩
  | call call waiting => exact begin_inv only inv
  | step call choice => exact keeps.stepCall only inv choice

omit [DecidableEq Call] in
theorem exclusive_initial (data : Data) :
    (initial data : Serialised Data Call Waiting Place).Exclusive :=
  fun _ => iff_of_false nofun nofun

theorem Keeps.run (keeps : Keeps crit I admits) (only : s.Exclusive) (inv : I s.data s.place)
    {ops : List (SerialOp Outside Call Waiting Choice)}
    (along : Run.Along (Serialised.step crit) (Admits admits) s ops) :
    (Run.run (Serialised.step crit) s ops).Exclusive ∧
      I (Run.run (Serialised.step crit) s ops).data (Run.run (Serialised.step crit) s ops).place :=
  Run.run_invariant (I := fun s => s.Exclusive ∧ I s.data s.place)
    (fun _ op inv admitted => keeps.step inv.1 inv.2 op admitted) ⟨only, inv⟩ along

def alone (crit : Critical Data Waiting Place Choice Outside) (choice : Choice) :
    ℕ → Data → Option Place → Data × Option Place
  | 0, data, place => (data, place)
  | _ + 1, data, none => (data, none)
  | n + 1, data, some place =>
    alone crit choice n (crit.act data choice place).1 (crit.act data choice place).2

omit [DecidableEq Call] in
theorem alone_act {choice : Choice} {data data' : Data} {place : Place} {next : Option Place}
    (acts : crit.act data choice place = (data', next)) (n : ℕ) :
    alone crit choice (n + 1) data (some place) = alone crit choice n data' next := by
  rw [alone, acts]

theorem run_steps (choice : Choice) (n : ℕ) {place : Place} (holder : s.holder = some call)
    (here : s.calls call = .holding place) {data : Data}
    (done : alone crit choice n s.data (some place) = (data, none)) :
    (Run.run (Serialised.step crit) s (List.replicate n (.step call choice))).data = data ∧
      (Run.run (Serialised.step crit) s (List.replicate n (.step call choice))).holder = none := by
  induction n generalizing s place with
  | zero => cases done
  | succ n ih =>
    rw [List.replicate_succ, Run.run_cons]
    have moved : s.step crit (.step call choice) =
        match crit.act s.data choice place with
        | (data, some next) => { s with data }.at_ call (.holding next)
        | (data, none) => { s with data, holder := none }.at_ call .idle := by
      show s.stepCall crit call choice = _
      unfold stepCall
      rw [here]
    rw [moved]
    unfold alone at done
    revert done
    rcases crit.act s.data choice place with ⟨next, _ | after⟩
    · intro done
      have data_eq : next = data := by
        cases n <;> exact congrArg Prod.fst done
      have stays : ∀ m, Run.run (Serialised.step crit)
          ({ s with data := next, holder := none }.at_ call .idle)
          (List.replicate m (.step call choice)) =
            { s with data := next, holder := none }.at_ call .idle := by
        intro m
        induction m with
        | zero => rfl
        | succ m ih =>
          rw [List.replicate_succ, Run.run_cons]
          have idle : (({ s with data := next, holder := none }.at_ call .idle).step crit
              (.step call choice)) = { s with data := next, holder := none }.at_ call .idle := by
            show stepCall crit _ call choice = _
            unfold stepCall
            have at_call : ({ s with data := next, holder := none }.at_ call .idle).calls call =
                .idle := Function.update_self ..
            rw [at_call]
          rw [idle, ih]
      dsimp only
      rw [stays n]
      exact ⟨data_eq, rfl⟩
    · intro done
      exact ih holder (Function.update_self ..) done

theorem run_alone (choice : Choice) (n : ℕ) (waiting : Waiting) (free : s.holder = none)
    (idle : s.calls call = .idle) {data : Data}
    (done : alone crit choice n s.data (some (crit.enter waiting)) = (data, none)) :
    let s' := Run.run (Serialised.step crit) s
      (.call call waiting :: List.replicate (n + 1) (.step call choice))
    s'.data = data ∧ s'.holder = none := by
  have called : s.step crit (.call call waiting : SerialOp Outside Call Waiting Choice) =
      s.at_ call (.waiting waiting) := by
    show begin_ s call waiting = _
    unfold begin_
    rw [idle]
  have entered : (s.at_ call (.waiting waiting)).step crit (.step call choice) =
      { s with holder := some call }.at_ call (.holding (crit.enter waiting)) := by
    show stepCall crit _ call choice = _
    unfold stepCall
    have here : (s.at_ call (.waiting waiting)).calls call = .waiting waiting :=
      Function.update_self ..
    have still : (s.at_ call (.waiting waiting)).holder = none := free
    rw [here]
    dsimp only
    rw [still]
    unfold at_
    simp
  intro s'
  have start : s' = Run.run (Serialised.step crit)
      ({ s with holder := some call }.at_ call (.holding (crit.enter waiting)))
      (List.replicate n (.step call choice)) := by
    show Run.run (Serialised.step crit) s _ = _
    rw [Run.run_cons, called, List.replicate_succ, Run.run_cons, entered]
  rw [start]
  exact run_steps choice n rfl (Function.update_self ..) done

end Serialised

end AbletonLink.Library
