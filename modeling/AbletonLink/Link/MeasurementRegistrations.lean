import AbletonLink.Library.Ownership
import AbletonLink.Library.Run
import AbletonLink.Link.State

/-! The registrations of measurement jobs: a job routes the PONG messages of its endpoint to itself,
enters its measurement, and takes both back when its registration is dropped.  Jobs start, replace
one another and end in any order. -/

namespace AbletonLink.Link

open Library Library.Run

/-- A shared map is known by its number, and so are the channel of `sender` and the allocation of
`job`. -/
structure MeasurementRegistration where
  nodeId : NodeId
  endpoint : SocketAddrV4
  sender : ℕ
  job : ℕ
  measurements : ℕ
  dispatch : ℕ
  deriving DecidableEq

inductive TrySend
  | sent
  | full
  | closed
  deriving DecidableEq

/-- A registration that is not dropped yet.  The serial number is there for the laws. -/
structure RegisteredJob where
  serial : ℕ
  registration : MeasurementRegistration
  deriving DecidableEq

namespace RegisteredJob

variable (j : RegisteredJob)

def measurementOwner : Owner (ℕ × NodeId) ℕ :=
  ⟨j.serial, (j.registration.measurements, j.registration.nodeId), j.registration.job⟩

def routeOwner : Owner (ℕ × SocketAddrV4) ℕ :=
  ⟨j.serial, (j.registration.dispatch, j.registration.endpoint), j.registration.sender⟩

end RegisteredJob

/-- All maps of one kind are one map here, under the number of the map and the key. -/
structure RegisteredJobs where
  measurements : OwnedMap (ℕ × NodeId) ℕ
  dispatch : OwnedMap (ℕ × SocketAddrV4) ℕ
  live : List RegisteredJob
  started : ℕ

inductive RegistrationOp
  | start (registration : MeasurementRegistration)
  | install (serial : ℕ)
  | drop (serial : ℕ)
  | pong (dispatch : ℕ) (src : SocketAddrV4) (answer : TrySend)

namespace RegisteredJobs

def initial : RegisteredJobs := ⟨∅, ∅, [], 0⟩

variable (s : RegisteredJobs)

def find (serial : ℕ) : Option RegisteredJob := s.live.find? fun j => j.serial = serial

def Allocates (registration : MeasurementRegistration) : Prop :=
  ∀ j ∈ s.live, j.registration.job ≠ registration.job ∧
    j.registration.sender ≠ registration.sender

instance (registration : MeasurementRegistration) : Decidable (s.Allocates registration) :=
  inferInstanceAs (Decidable (∀ j ∈ s.live, _))

def start (registration : MeasurementRegistration) : RegisteredJobs :=
  let job := ⟨s.started, registration⟩
  { s with
    dispatch := s.dispatch.install job.routeOwner
    live := job :: s.live
    started := s.started + 1 }

def install (job : RegisteredJob) : RegisteredJobs :=
  { s with measurements := s.measurements.install job.measurementOwner }

def drop (job : RegisteredJob) : RegisteredJobs :=
  { s with
    measurements := s.measurements.release job.measurementOwner
    dispatch := s.dispatch.release job.routeOwner
    live := s.live.filter fun j => j.serial ≠ job.serial }

def dispatchPong (dispatch : ℕ) (src : SocketAddrV4) (answer : TrySend) : RegisteredJobs :=
  match s.dispatch.lookup (dispatch, src) with
  | some _ =>
    match answer with
    | .closed => { s with dispatch := s.dispatch.erase (dispatch, src) }
    | .sent | .full => s
  | none => s

def step : RegistrationOp → RegisteredJobs
  | .start registration => if s.Allocates registration then s.start registration else s
  | .install serial =>
    match s.find serial with
    | some job => s.install job
    | none => s
  | .drop serial =>
    match s.find serial with
    | some job => s.drop job
    | none => s
  | .pong dispatch src answer => s.dispatchPong dispatch src answer

def measurementOwners : Set (Owner (ℕ × NodeId) ℕ) :=
  RegisteredJob.measurementOwner '' {j | j ∈ s.live}

def routeOwners : Set (Owner (ℕ × SocketAddrV4) ℕ) := RegisteredJob.routeOwner '' {j | j ∈ s.live}

structure Inv : Prop where
  started : ∀ j ∈ s.live, j.serial < s.started
  serials : Set.InjOn RegisteredJob.serial {j | j ∈ s.live}
  jobs : Set.InjOn (fun j => j.registration.job) {j | j ∈ s.live}
  senders : Set.InjOn (fun j => j.registration.sender) {j | j ∈ s.live}
  measurements : s.measurements.Held s.measurementOwners
  routes : s.dispatch.Held s.routeOwners

theorem inv_initial : initial.Inv := by
  constructor
  · rintro j ⟨⟩
  · rintro j ⟨⟩
  · rintro j ⟨⟩
  · rintro j ⟨⟩
  · exact OwnedMap.held_empty
  · exact OwnedMap.held_empty

variable {s} {job : RegisteredJob}

theorem find_some {serial : ℕ} (found : s.find serial = some job) :
    job ∈ s.live ∧ job.serial = serial := by
  have same := List.find?_some found
  exact ⟨List.mem_of_find?_eq_some found, of_decide_eq_true same⟩

theorem Inv.find_serial (inv : s.Inv) (member : job ∈ s.live) : s.find job.serial = some job := by
  obtain ⟨other, found⟩ : ∃ other, s.find job.serial = some other :=
    Option.isSome_iff_exists.mp (List.find?_isSome.mpr ⟨job, member, decide_eq_true rfl⟩)
  obtain ⟨there, same⟩ := find_some found
  rw [found, inv.serials there member same]

theorem Inv.distinct_measurements (inv : s.Inv) : OwnedMap.Distinct s.measurementOwners :=
  .image inv.serials inv.jobs

theorem Inv.distinct_routes (inv : s.Inv) : OwnedMap.Distinct s.routeOwners :=
  .image inv.serials inv.senders

theorem injOn_cons {α : Type*} {f : RegisteredJob → α} {live : List RegisteredJob}
    (distinct : Set.InjOn f {j | j ∈ live}) (new : ∀ j ∈ live, f j ≠ f job) :
    Set.InjOn f {j | j ∈ job :: live} := by
  intro j hj k hk same
  obtain rfl | earlier := List.mem_cons.mp hj
  · obtain rfl | earlier' := List.mem_cons.mp hk
    · rfl
    · exact absurd same.symm (new k earlier')
  · obtain rfl | earlier' := List.mem_cons.mp hk
    · exact absurd same (new j earlier)
    · exact distinct earlier earlier' same

theorem Inv.start (inv : s.Inv) {registration : MeasurementRegistration}
    (allocates : s.Allocates registration) : (s.start registration).Inv := by
  have more : {j | j ∈ s.live} ⊆ {j | j ∈ (s.start registration).live} :=
    fun j member => List.mem_cons_of_mem _ member
  constructor
  · intro j member
    obtain rfl | member := List.mem_cons.mp member
    · exact Nat.lt_succ_self _
    · exact Nat.lt_succ_of_lt (inv.started j member)
  · exact injOn_cons inv.serials fun j member => (inv.started j member).ne
  · exact injOn_cons inv.jobs fun j member => (allocates j member).1
  · exact injOn_cons inv.senders fun j member => (allocates j member).2
  · exact inv.measurements.mono (Set.image_mono more)
  · exact (inv.routes.mono (Set.image_mono more)).install ⟨_, List.mem_cons_self, rfl⟩

theorem Inv.install (inv : s.Inv) (member : job ∈ s.live) : (s.install job).Inv :=
  { inv with measurements := inv.measurements.install ⟨job, member, rfl⟩ }

theorem Inv.others (inv : s.Inv) (member : job ∈ s.live) {α : Type*} (f : RegisteredJob → α) :
    f '' {j | j ∈ s.live} \ {f job} ⊆ f '' {j | j ∈ (s.drop job).live} := by
  rintro _ ⟨⟨j, there, rfl⟩, other⟩
  refine ⟨j, List.mem_filter.mpr ⟨there, decide_eq_true ?_⟩, rfl⟩
  intro same
  exact other (congrArg f (inv.serials there member same))

theorem Inv.drop (inv : s.Inv) (member : job ∈ s.live) : (s.drop job).Inv := by
  have fewer : {j | j ∈ (s.drop job).live} ⊆ {j | j ∈ s.live} :=
    fun j member => List.mem_of_mem_filter member
  constructor
  · exact fun j member => inv.started j (fewer member)
  · exact inv.serials.mono fewer
  · exact inv.jobs.mono fewer
  · exact inv.senders.mono fewer
  · exact (inv.measurements.release inv.distinct_measurements ⟨job, member, rfl⟩).mono
      (inv.others member RegisteredJob.measurementOwner)
  · exact (inv.routes.release inv.distinct_routes ⟨job, member, rfl⟩).mono
      (inv.others member RegisteredJob.routeOwner)

theorem Inv.dispatchPong (inv : s.Inv) (dispatch : ℕ) (src : SocketAddrV4) (answer : TrySend) :
    (s.dispatchPong dispatch src answer).Inv := by
  unfold RegisteredJobs.dispatchPong
  split
  · split
    · exact { inv with routes := inv.routes.erase _ }
    · exact inv
    · exact inv
  · exact inv

theorem Inv.step (inv : s.Inv) (op : RegistrationOp) : (s.step op).Inv := by
  cases op with
  | start registration =>
    dsimp only [RegisteredJobs.step]
    split
    next allocates => exact inv.start allocates
    next => exact inv
  | install serial =>
    dsimp only [RegisteredJobs.step]
    split
    next job found => exact inv.install (find_some found).1
    next => exact inv
  | drop serial =>
    dsimp only [RegisteredJobs.step]
    split
    next job found => exact inv.drop (find_some found).1
    next => exact inv
  | pong dispatch src answer => exact inv.dispatchPong dispatch src answer

theorem inv_run (ops : List RegistrationOp) : (run step initial ops).Inv :=
  run_keeps (fun _ op inv => inv.step op) ops inv_initial

theorem Inv.step_drop (inv : s.Inv) (member : job ∈ s.live) :
    s.step (.drop job.serial) = s.drop job := by
  dsimp only [RegisteredJobs.step]
  rw [inv.find_serial member]

theorem Inv.lookup_measurements_drop (inv : s.Inv) (member : job ∈ s.live) (key : ℕ × NodeId) :
    (s.drop job).measurements.lookup key =
      (s.measurements.lookup key).filter fun entry => entry.installer ≠ job.serial :=
  OwnedMap.lookup_release inv.measurements inv.distinct_measurements ⟨job, member, rfl⟩ key

theorem Inv.lookup_dispatch_drop (inv : s.Inv) (member : job ∈ s.live) (key : ℕ × SocketAddrV4) :
    (s.drop job).dispatch.lookup key =
      (s.dispatch.lookup key).filter fun entry => entry.installer ≠ job.serial :=
  OwnedMap.lookup_release inv.routes inv.distinct_routes ⟨job, member, rfl⟩ key

/-- In every run: dropping a registration removes from both maps what its job installed and nothing
else, so that the routes of the other jobs stay as they are; and an entry is always that of a live
job, so that none is left when all are done. -/
theorem registrations_owned (ops : List RegistrationOp) :
    let s := run step initial ops
    (∀ job ∈ s.live,
      (∀ key, (s.step (.drop job.serial)).measurements.lookup key =
        (s.measurements.lookup key).filter fun entry => entry.installer ≠ job.serial) ∧
      (∀ key, (s.step (.drop job.serial)).dispatch.lookup key =
        (s.dispatch.lookup key).filter fun entry => entry.installer ≠ job.serial) ∧
      ∀ other ∈ s.live, other ≠ job →
        (∀ key token, s.measurements.lookup key = some ⟨token, other.serial⟩ →
          (s.step (.drop job.serial)).measurements.lookup key = some ⟨token, other.serial⟩) ∧
        ∀ key token, s.dispatch.lookup key = some ⟨token, other.serial⟩ →
          (s.step (.drop job.serial)).dispatch.lookup key = some ⟨token, other.serial⟩) ∧
    (∀ key entry, s.measurements.lookup key = some entry →
      ∃ job ∈ s.live, job.measurementOwner = ⟨entry.installer, key, entry.token⟩) ∧
    (∀ key entry, s.dispatch.lookup key = some entry →
      ∃ job ∈ s.live, job.routeOwner = ⟨entry.installer, key, entry.token⟩) ∧
    (s.live = [] → s.measurements = ∅ ∧ s.dispatch = ∅) := by
  intro s
  have inv : s.Inv := inv_run ops
  refine ⟨?_, inv.measurements, inv.routes, ?_⟩
  · intro job member
    rw [inv.step_drop member]
    have measurements := inv.lookup_measurements_drop member
    have routes := inv.lookup_dispatch_drop member
    refine ⟨measurements, routes, ?_⟩
    intro other there apart
    have stays : other.serial ≠ job.serial := fun same => apart (inv.serials there member same)
    constructor
    · intro key token found
      rw [measurements, found, Option.filter_some, if_pos (decide_eq_true stays)]
    · intro key token found
      rw [routes, found, Option.filter_some, if_pos (decide_eq_true stays)]
  · intro none
    have nobody : {j | j ∈ s.live} = ∅ := by
      rw [none]
      exact Set.eq_empty_of_forall_notMem fun j => List.not_mem_nil
    have measurements := inv.measurements
    have routes := inv.routes
    unfold measurementOwners at measurements
    unfold routeOwners at routes
    rw [nobody, Set.image_empty] at measurements routes
    exact ⟨measurements.eq_empty, routes.eq_empty⟩

example :
    let first : MeasurementRegistration := ⟨⟨.replicate 8 1⟩, ⟨1, 1⟩, 0, 0, 0, 0⟩
    let second : MeasurementRegistration := { first with sender := 1, job := 1 }
    let s := run step initial [.start first, .install 0, .start second, .drop 0]
    s.dispatch.lookup (0, ⟨1, 1⟩) = some ⟨1, 1⟩ ∧
      s.measurements.lookup (0, first.nodeId) = none := by
  decide

end RegisteredJobs

end AbletonLink.Link
