import Movid.Output.Tuio2
import Movid.Schedule.Poll

/-!
# The sockets of the output modules

`start` of a Tuio or Tuio2 module makes `osc`, `stop` deletes it. `notifyData` of these modules
sends without asking whether the module was started: unlike the other modules they never call
`notifyUpdate`, which would start one that was added to a running pipeline.
-/

namespace Movid.Schedule

/-- The modules that send bundles. -/
def Kind.sender : Kind → Bool
  | .tuio | .tuio2 => true
  | _ => false

/-- A bundle that is about to be sent: `osc` is there, and the pipeline was started while the module
was in it. -/
structure Sending where
  osc : Bool
  met : Bool
  deriving DecidableEq

/-- What a module knows of its socket, beside the rest of its state. -/
structure Socket (L : Type) where
  inner : L
  osc : Bool
  met : Bool
  log : List Sending

def Socket.new {L : Type} (inner : L) : Socket L := { inner, osc := false, met := false, log := [] }

variable {V L : Type}

/-- The modules with their sockets. `sends` says whether `notifyData` gets as far as
`osc->send`. -/
def Behaviour.withSocket (b : Behaviour V L) (sends : Kind → L → Option V → Bool) : Behaviour V (Socket L) where
  update kind rest inputs :=
    ({ rest with inner := (b.update kind rest.inner inputs).1 }, (b.update kind rest.inner inputs).2)
  receive kind rest value :=
    { rest with
      inner := b.receive kind rest.inner value
      log := if kind.sender && sends kind rest.inner value then rest.log ++ [⟨rest.osc, rest.met⟩] else rest.log }
  justify rest := b.justify rest.inner

def Declaration.withSocket (d : Declaration L) : Declaration (Socket L) :=
  { kind := d.kind, inputs := d.inputs, outputs := d.outputs, rest := .new d.rest, arity := d.arity }

/-- The virtual `start`. An Image module loads its file again, and may have an update pending after
that. -/
def Job.start (loads : Bool) (job : Job (Socket L)) : Job (Socket L) :=
  { job with
    isStarted := true
    needUpdate := if job.kind = .image then loads else job.needUpdate
    rest := { job.rest with osc := job.rest.osc || job.kind.sender, met := true } }

def Job.stop (job : Job (Socket L)) : Job (Socket L) :=
  { job with isStarted := false, needUpdate := false, rest := { job.rest with osc := false } }

/-- The program: the pipeline with its own `is_started`. -/
structure Session (V L : Type) where
  world : World V (Socket L)
  isStarted : Bool

/-- `start` is told which Image modules have an update pending after it. -/
inductive Command (L : Type) where
  | create (d : Declaration L)
  | connect (r : ModuleRef) (source : Option (ModuleRef × Int)) (n : Int)
  | reload (r : ModuleRef)
  | start (loads : ModuleRef → Bool)
  | stop
  | pass

namespace World

def forModules (w : World V L) (f : ModuleRef → Job L → Job L) : World V L :=
  w.net.elements.foldl (fun w r => w.updateJob r (f r)) w

end World

namespace Session

def empty : Session V L := { world := .empty, isStarted := false }

variable (b : Behaviour V L) (sends : Kind → L → Option V → Bool) (fuel : Nat)

/-- The main loop polls a pipeline that is started. -/
def step (s : Session V L) : Command L → Option (Session V L)
  | .create d => (s.world.step (b.withSocket sends) fuel (.create d.withSocket)).map fun world => { s with world }
  | .connect r source n => (s.world.step (b.withSocket sends) fuel (.connect r source n)).map fun world => { s with world }
  | .reload r => (s.world.step (b.withSocket sends) fuel (.reload r)).map fun world => { s with world }
  | .start loads => some { world := s.world.forModules fun r job => job.start (loads r), isStarted := true }
  | .stop => some { world := s.world.forModules fun _ job => job.stop, isStarted := false }
  | .pass =>
    if s.isStarted then (s.world.step (b.withSocket sends) fuel .pass).map fun world => { s with world } else some s

def log (s : Session V L) (r : ModuleRef) : List Sending := ((s.world.job r).map (·.rest.log)).getD []

end Session

/-! ### What a pass keeps of the rest of a module -/

namespace World

def Holds (Q : Kind → L → Prop) (w : World V L) : Prop := ∀ r job, w.job r = some job → Q job.kind job.rest

variable {b : Behaviour V L} {w v : World V L} {r : ModuleRef} {s : StreamRef} {Q : Kind → L → Prop} {fuel : Nat}

theorem Holds.updateJob (holds : w.Holds Q) {f : Job L → Job L}
    (keeps : ∀ job, w.job r = some job → Q (f job).kind (f job).rest) : (w.updateJob r f).Holds Q := by
  intro x job found
  rw [updateJob_job] at found
  split at found
  · obtain ⟨old, here, rfl⟩ := Option.map_eq_some_iff.mp found
    exact keeps old here
  · exact holds x job found

theorem Holds.notifyUpdate (holds : w.Holds Q) (r : ModuleRef) : (w.notifyUpdate r).Holds Q :=
  holds.updateJob fun job found => holds r job found

section Behaviour

variable (receive : ∀ kind rest value, Q kind rest → Q kind (b.receive kind rest value))

include receive

theorem Holds.notifyData (holds : w.Holds Q) {push : World V L → StreamRef → Option V → Option (World V L)}
    (nested : ∀ w t value v, push w t value = some v → w.Holds Q → v.Holds Q)
    (h : World.notifyData b push s w r = some v) : v.Holds Q := by
  unfold World.notifyData at h
  obtain ⟨job, found, h⟩ := Option.bind_eq_some_iff.mp h
  have received : (w.updateJob r fun j => { j with rest := b.receive job.kind job.rest (w.data s) }).Holds Q := by
    apply holds.updateJob
    intro j here
    obtain rfl : job = j := Option.some.inj (found.symm.trans here)
    exact receive _ _ _ (holds r job found)
  simp only [] at h
  split at h
  · cases h
    exact received.notifyUpdate r
  · split at h
    · cases h
      exact received.notifyUpdate r
    · cases h
      exact received
  · exact nested _ _ _ _ h received
  · cases h
    exact received

theorem Holds.push (fuel : Nat) {value : Option V} (holds : w.Holds Q) (h : push b fuel w s value = some v) : v.Holds Q := by
  induction fuel generalizing w v s value with
  | zero => cases h
  | succ fuel ih =>
    have stored : (w.store s value).Holds Q := holds
    exact Lists.foldlM_invariant (fun _ _ _ _ told now => now.notifyData receive (fun _ _ _ _ call now => ih now call) told)
      h stored

variable (update : ∀ kind rest inputs, Q kind rest → Q kind (b.update kind rest inputs).1)

include update

theorem Holds.poll (holds : w.Holds Q) (h : w.poll b fuel r = some v) : v.Holds Q := by
  have prepared : (w.prepare r).Holds Q := by
    unfold prepare
    split
    · exact holds.notifyUpdate r
    · exact holds
  unfold World.poll at h
  simp only [] at h
  split at h
  · unfold World.update at h
    obtain ⟨job, found, h⟩ := Option.bind_eq_some_iff.mp h
    simp only [] at h
    obtain ⟨u, performed, rfl⟩ := Option.map_eq_some_iff.mp h
    have consumed : ((w.prepare r).consume r (if job.kind.idle then job.rest
        else (b.update job.kind job.rest ((w.prepare r).inputData r)).1)).Holds Q := by
      apply prepared.updateJob
      intro j here
      obtain rfl : job = j := Option.some.inj (found.symm.trans here)
      have now := prepared r job found
      dsimp only
      split
      · exact now
      · exact update _ _ _ now
    have done : u.Holds Q := by
      refine Lists.foldlM_invariant (fun w a _ v act now => ?_) performed consumed
      cases a with
      | push idx value => exact now.push receive fuel act
      | stop =>
        cases act
        exact now.updateJob fun job found => now r job found
    split
    · exact done.notifyUpdate r
    · exact done
  · cases h
    exact prepared

theorem Holds.pass (holds : w.Holds Q) (h : w.pass b fuel = some v) : v.Holds Q :=
  Lists.foldlM_invariant (fun _ _ _ _ polled now => now.poll receive update polled) h holds

end Behaviour

theorem forModules_job (w : World V L) (nodup : w.net.elements.Nodup) (f : ModuleRef → Job L → Job L) (x : ModuleRef) :
    (w.forModules f).job x = if x ∈ w.net.elements then (w.job x).map (f x) else w.job x := by
  unfold forModules
  generalize w.net.elements = rs at nodup ⊢
  induction rs generalizing w with
  | nil => rfl
  | cons r rs ih =>
    obtain ⟨fresh, nodup⟩ := List.nodup_cons.mp nodup
    rw [List.foldl_cons, ih _ nodup, updateJob_job]
    by_cases same : x = r
    · subst same
      rw [if_neg fresh, if_pos rfl, if_pos List.mem_cons_self]
    · rw [if_neg same]
      simp only [List.mem_cons, same, false_or]

theorem forModules_effect (w : World V L) {f : ModuleRef → Job L → Job L} (keeps : ∀ r job, (f r job).kind = job.kind) :
    Effect Set.univ ∅ w (w.forModules f) := by
  unfold forModules
  induction w.net.elements generalizing w with
  | nil => exact .refl ..
  | cons r rs ih =>
    rw [List.foldl_cons]
    exact ((updateJob_effect w r (f r) (keeps r) ∅).mono (Set.subset_univ _) (Set.Subset.refl _)).trans (ih _)

end World

/-! ### Every run -/

/-- While the pipeline is started, exactly the modules that it was started with have a socket. -/
def Socket.Settled (isStarted : Bool) (kind : Kind) (rest : Socket L) : Prop :=
  (kind.sender = true → rest.osc = (isStarted && rest.met)) ∧ ∀ sending ∈ rest.log, sending.osc = sending.met

theorem Socket.Settled.new (isStarted : Bool) (kind : Kind) (inner : L) : Settled isStarted kind (.new inner) :=
  ⟨fun _ => (Bool.and_false _).symm, fun _ none => absurd none List.not_mem_nil⟩

theorem Socket.Settled.receive {b : Behaviour V L} {sends : Kind → L → Option V → Bool} {kind : Kind} {rest : Socket L}
    (settled : Settled true kind rest) (value : Option V) :
    Settled true kind ((b.withSocket sends).receive kind rest value) := by
  refine ⟨settled.1, ?_⟩
  unfold Behaviour.withSocket
  dsimp only
  split
  · rename_i sender
    refine List.forall_mem_append.mpr ⟨settled.2, List.forall_mem_singleton.mpr ?_⟩
    exact (settled.1 (Bool.and_eq_true_iff.mp sender).1).trans (Bool.true_and _)
  · exact settled.2

theorem Job.start_settled {isStarted : Bool} {job : Job (Socket L)} (settled : job.rest.Settled isStarted job.kind)
    (loads : Bool) : (job.start loads).rest.Settled true (job.start loads).kind := by
  refine ⟨fun sender => ?_, settled.2⟩
  have sender : job.kind.sender = true := sender
  show (job.rest.osc || job.kind.sender) = (true && true)
  rw [sender, Bool.or_true, Bool.and_true]

theorem Job.stop_settled {isStarted : Bool} {job : Job (Socket L)} (settled : job.rest.Settled isStarted job.kind) :
    job.stop.rest.Settled false job.stop.kind := ⟨fun _ => (Bool.false_and _).symm, settled.2⟩

namespace Session

structure Settled (s : Session V L) : Prop where
  ok : s.world.Ok
  listed : ∀ r, s.world.job r ≠ none → r ∈ s.world.net.elements
  sockets : s.world.Holds (Socket.Settled s.isStarted)

theorem empty_settled : (empty : Session V L).Settled :=
  ⟨World.empty_ok, fun r live => absurd rfl live, fun r job found => by cases found⟩

theorem effect_listed {w v : World V L} {E : Set ModuleRef} {S : Set StreamRef} (effect : World.Effect E S w v)
    (listed : ∀ r, w.job r ≠ none → r ∈ w.net.elements) (r : ModuleRef) (live : v.job r ≠ none) : r ∈ v.net.elements := by
  have dead (w : World V L) : w.job r = none ↔ w.frame r = none := by
    unfold World.job World.frame
    rw [Option.map_eq_none_iff, Option.map_eq_none_iff]
  rw [effect.elements]
  refine listed r fun gone => live ?_
  rw [dead, effect.frame, ← dead]
  exact gone

theorem Settled.forModules {s : Session V L} (settled : s.Settled) {f : ModuleRef → Job (Socket L) → Job (Socket L)}
    (keeps : ∀ r job, (f r job).kind = job.kind) {isStarted : Bool}
    (sockets : ∀ r job, job.rest.Settled s.isStarted job.kind → (f r job).rest.Settled isStarted (f r job).kind) :
    Settled { world := s.world.forModules f, isStarted } := by
  have effect := World.forModules_effect s.world keeps
  refine ⟨effect.ok settled.ok, effect_listed effect settled.listed, fun r job found => ?_⟩
  change (s.world.forModules f).job r = some job at found
  have member : r ∈ s.world.net.elements := by
    rw [← effect.elements]
    exact effect_listed effect settled.listed r (by rw [found]; exact Option.some_ne_none job)
  rw [World.forModules_job _ settled.ok.wired.nodup, if_pos member] at found
  obtain ⟨old, before, rfl⟩ := Option.map_eq_some_iff.mp found
  exact sockets r old (settled.sockets r old before)

variable {b : Behaviour V L} {sends : Kind → L → Option V → Bool} {fuel : Nat}

theorem Settled.create {s : Session V L} (settled : s.Settled) (d : Declaration L) :
    Settled { s with world := { s.world with net := s.world.net.step (.create d.withSocket.spec) } } := by
  have job (x : ModuleRef) : ({ s.world with net := s.world.net.step (.create d.withSocket.spec) } : World V (Socket L)).job x =
      if x = s.world.net.next then some d.withSocket.spec.state else s.world.job x :=
    Net.webPipelineCreate_state s.world.net d.withSocket.spec x
  refine ⟨World.create_ok settled.ok _, fun x live => ?_, fun x found here => ?_⟩
  · rw [job] at live
    change x ∈ s.world.net.elements ++ [s.world.net.next]
    split at live
    · rename_i new
      exact List.mem_append_right _ (List.mem_singleton.mpr new)
    · exact List.mem_append_left _ (settled.listed x live)
  · rw [job] at here
    split at here
    · cases here
      exact Socket.Settled.new ..
    · exact settled.sockets x found here

theorem Settled.connect {s : Session V L} (settled : s.Settled) (r : ModuleRef) (source : Option (ModuleRef × Int)) (n : Int) :
    Settled { s with world := { s.world with net := s.world.net.step (.setInput r source n) } } := by
  have job : ({ s.world with net := s.world.net.step (.setInput r source n) } : World V (Socket L)).job = s.world.job :=
    Net.setInput_state ..
  refine ⟨World.connect_ok settled.ok r source n, fun x live => ?_, fun x found here => ?_⟩
  · rw [job] at live
    change x ∈ (s.world.net.setInput r _ n).elements
    rw [Net.setInput_elements]
    exact settled.listed x live
  · rw [job] at here
    exact settled.sockets x found here

theorem Settled.reload {s : Session V L} (settled : s.Settled) (r : ModuleRef) :
    Settled { s with world := s.world.reload r } := by
  have effect := World.reload_effect s.world r
  refine ⟨effect.ok settled.ok, effect_listed effect settled.listed, ?_⟩
  unfold World.reload
  cases s.world.job r with
  | none => exact settled.sockets
  | some job =>
    dsimp only
    split
    · exact settled.sockets.notifyUpdate r
    · exact settled.sockets

theorem Settled.pass {s : Session V L} (settled : s.Settled) (started : s.isStarted = true) {v : World V (Socket L)}
    (h : s.world.pass (b.withSocket sends) fuel = some v) : Settled { s with world := v } := by
  have sockets := settled.sockets
  rw [started] at sockets
  refine ⟨World.pass_effect_ok h settled.ok, ?_, ?_⟩
  · refine Lists.foldlM_invariant (I := fun w => ∀ r, w.job r ≠ none → r ∈ w.net.elements) (fun _ _ _ _ polled listed => ?_) h
      settled.listed
    exact effect_listed (World.poll_effect polled) listed
  · rw [show ({ s with world := v } : Session V L).isStarted = true from started]
    exact sockets.pass (fun _ _ value settled => settled.receive value) (fun _ _ _ settled => settled) h

theorem Settled.step {s t : Session V L} {command : Command L} (h : s.step b sends fuel command = some t)
    (settled : s.Settled) : t.Settled := by
  cases command with
  | create d =>
    cases h
    exact settled.create d
  | connect r source n =>
    cases h
    exact settled.connect r source n
  | reload r =>
    cases h
    exact settled.reload r
  | start loads =>
    cases h
    exact settled.forModules (f := fun r job => job.start (loads r)) (fun _ _ => rfl)
      fun r job before => Job.start_settled before (loads r)
  | stop =>
    cases h
    exact settled.forModules (f := fun _ job => job.stop) (fun _ _ => rfl) fun _ _ before => Job.stop_settled before
  | pass =>
    simp only [Session.step] at h
    split at h
    · rename_i started
      obtain ⟨v, passed, rfl⟩ := Option.map_eq_some_iff.mp h
      exact settled.pass started passed
    · cases h
      exact settled

theorem reached_settled {commands : List (Command L)} {s : Session V L}
    (reached : Machine.attempt (Session.step b sends fuel) empty commands = some s) : s.Settled :=
  Machine.attempt_invariant (I := Settled) (fun _ _ _ now before => before.step now) empty_settled reached

theorem mem_log {s : Session V L} (settled : s.Settled) {r : ModuleRef} {sending : Sending} (sent : sending ∈ s.log r) :
    sending.osc = sending.met := by
  unfold log at sent
  cases found : s.world.job r with
  | none =>
    rw [found] at sent
    cases sent
  | some job =>
    rw [found] at sent
    exact (settled.sockets r job found).2 sending sent

/-- In every run the bundles go to an open socket exactly if they are sent by modules that were in
the pipeline when it was started. -/
theorem sends_open_iff {commands : List (Command L)} {s : Session V L}
    (reached : Machine.attempt (Session.step b sends fuel) empty commands = some s) :
    (∀ r, ∀ sending ∈ s.log r, sending.osc = true) ↔ ∀ r, ∀ sending ∈ s.log r, sending.met = true := by
  have settled := reached_settled reached
  refine forall_congr' fun r => forall₂_congr fun sending sent => ?_
  rw [mem_log settled sent]

/-! ### A camera, a finder, a tracker and a Tuio module -/

open Output (Tuio Tuio2 TuioType)
open Preset (Platform)

/-- When the two modules send; a Tuio module keeps the type of the messages. -/
def outputSends {P : Platform} : Kind → TuioType → Option (List (Container P)) → Bool
  | .tuio, type, some blobs => Tuio.sends type blobs
  | .tuio2, _, some blobs => Tuio2.sends blobs
  | _, _, _ => false

/-- Every update finds the same blob; a list stands for the image too. -/
def oneTouch : Behaviour (List (Container Platform.whole)) TuioType where
  update kind type _ := (type, [.push (if kind = .imageFilter then 1 else 0) (some [Tuio.touch])])
  receive kind type value :=
    if kind = .tuio ∧ type = .unknown then ((value.bind (·.head?)).bind Tuio.probe).getD .unknown else type
  justify _ := none

def declare (kind : Kind) (format : String) (outputs : List String) : Command TuioType :=
  .create
    { kind
      inputs := List.replicate kind.inputCount format.toList
      outputs := outputs.map String.toList
      rest := .unknown
      arity := List.length_replicate }

def tracking : List (Command TuioType) :=
  [declare .camera "" ["IplImage", "IplImage8"], declare .imageFilter "IplImage" ["IplImage", "blob"],
    declare .blobTracker "blob" ["trackedblob"], .connect 1 (some (0, 0)) 0, .connect 2 (some (1, 1)) 0]

def output : List (Command TuioType) := [declare .tuio "trackedblob" [], .connect 3 (some (2, 0)) 0]

def started : Command TuioType := .start fun _ => false

theorem sends_open_tracking : ∃ s,
    Machine.attempt (Session.step oneTouch outputSends 2) empty (tracking ++ output ++ [started, .pass]) = some s ∧
    s.log 3 = [⟨true, true⟩] ∧
    ((∀ r, ∀ sending ∈ s.log r, sending.osc = true) ↔ ∀ r, ∀ sending ∈ s.log r, sending.met = true) := by
  have run : (Machine.attempt (Session.step oneTouch outputSends 2) empty (tracking ++ output ++ [started, .pass])).map
      (fun s => s.log 3) = some [⟨true, true⟩] := by decide
  obtain ⟨s, reached, log⟩ := Option.map_eq_some_iff.mp run
  exact ⟨s, reached, log, sends_open_iff reached⟩

/-- The Tuio module is created while the pipeline runs. -/
theorem sends_closed : ∃ s,
    Machine.attempt (Session.step oneTouch outputSends 2) empty (tracking ++ [started] ++ output ++ [.pass]) = some s ∧
    ¬∀ r, ∀ sending ∈ s.log r, sending.osc = true := by
  have run : (Machine.attempt (Session.step oneTouch outputSends 2) empty (tracking ++ [started] ++ output ++ [.pass])).map
      (fun s => s.log 3) = some [⟨false, false⟩] := by decide
  obtain ⟨s, reached, log⟩ := Option.map_eq_some_iff.mp run
  refine ⟨s, reached, fun all => ?_⟩
  exact absurd (all 3 ⟨false, false⟩ (by rw [log]; exact List.mem_cons_self)) Bool.false_ne_true

end Session

end Movid.Schedule
