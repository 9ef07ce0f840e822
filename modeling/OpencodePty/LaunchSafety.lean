import Mathlib.Data.List.Basic
import OpencodePty.DaemonLaunches

/-!
# What the client does to get a daemon

In every run, whatever the storage, the daemons and the system answer, the client launches at most
one daemon, and only while it has the start lock and after it has seen under the lock that no daemon
serves. It takes no lock that it has, and releases the lock that it has taken before it ends, also
where it throws. A descriptor that it returns is safe and of this version, and the daemon behind it
has said that it is healthy.
-/

namespace OpencodePty.DaemonLaunches

open JsValues AbortablePrograms

/-- The calls that were made and what they returned, in order. -/
abbrev History := List (Entry Call Call.Reply Failure)

/-! ## Histories -/

/-- The lock that the client has, after one more entry. -/
def heldAfter (held : Option StartLockLease) : Entry Call Call.Reply Failure → Option StartLockLease
  | .returned .acquireStartLock (.ok (some lease)) => some lease
  | .called (.releaseStartLock _) _ => none
  | _ => held

/-- The lock that the client has taken and not released. -/
def held (history : History) : Option StartLockLease := history.foldl heldAfter none

/-- The daemon that a call launches. -/
def Entry.launch? : Entry Call Call.Reply Failure → Option (JsString × JsString)
  | .called (.launch token handoffToken) _ => some (token, handoffToken)
  | _ => none

/-- The launches, with the tokens that the daemons were given. -/
def launches (history : History) : List (JsString × JsString) := history.filterMap Entry.launch?

/-- The daemon of a descriptor has said that it is healthy. -/
def Healthy (history : History) (descriptor : DaemonDescriptor) : Prop :=
  descriptor.protocolVersion = daemonProtocolVersion ∧ ∃ timeoutMs reply,
    .returned (.health descriptor timeoutMs) (.ok reply) ∈ history ∧
      judged descriptor reply = .healthy

/-- The daemon of a descriptor has said that it is of another version, or its descriptor is. -/
def Incompatible (history : History) (descriptor : DaemonDescriptor) : Prop :=
  descriptor.protocolVersion ≠ daemonProtocolVersion ∨ ∃ timeoutMs reply,
    .returned (.health descriptor timeoutMs) (.ok reply) ∈ history ∧
      judged descriptor reply = .incompatible

/-- The daemon of a descriptor is not healthy, and one of another version is dead. -/
structure Gone (history : History) (descriptor : DaemonDescriptor) : Prop where
  unhealthy : ¬ Healthy history descriptor
  dead : Incompatible history descriptor →
    .returned .descriptorOwnerStatus (.ok .dead) ∈ history

/-- Since it has the lock the client has read the descriptor, and found no daemon that serves. -/
def Unserved (history : History) : Prop :=
  ∃ before value after, history = before ++ .returned .readDescriptor (.ok value) :: after ∧
    held before = held history ∧ ∀ descriptor, value.bind isSafeDescriptor = some descriptor →
      Gone after descriptor

/-- What may be called after a history. -/
structure Permitted (aborted : Bool) (history : History) (call : Call) : Prop where
  launch : ∀ token handoffToken, call = .launch token handoffToken →
    launches history = [] ∧ Unserved history ∧
      ∃ lease, held history = some lease ∧ lease.handoffToken = handoffToken
  acquire : call = .acquireStartLock → held history = none
  release : ∀ token, call = .releaseStartLock token →
    ∃ lease, held history = some lease ∧ lease.token = token

/-- How the client ends: without the lock, and with a descriptor that it has reason to return. -/
structure Ends (known : Option DaemonDescriptor) (history : History)
    (outcome : Except Failure DaemonDescriptor) : Prop where
  released : held history = none
  returned : ∀ descriptor, outcome = .ok descriptor → Healthy history descriptor ∧
    (known = some descriptor ∨ ∃ value, .returned .readDescriptor (.ok (some value)) ∈ history ∧
      isSafeDescriptor value = some descriptor)

/-! ## What more history keeps -/

/-- A daemon that a probe found healthy stays found. -/
theorem Healthy.more {history : History} {descriptor : DaemonDescriptor}
    (healthy : Healthy history descriptor) (before after : History) :
    Healthy (before ++ history ++ after) descriptor := by
  obtain ⟨version, timeoutMs, reply, answered, judgment⟩ := healthy
  refine ⟨version, timeoutMs, reply, ?_, judgment⟩
  exact List.mem_append_left after (List.mem_append_right before answered)

/-- A descriptor that was read, of a daemon that is healthy. -/
structure Found (history : History) (descriptor : DaemonDescriptor) : Prop where
  healthy : Healthy history descriptor
  read : ∃ value, .returned .readDescriptor (.ok (some value)) ∈ history ∧
    isSafeDescriptor value = some descriptor

/-- A descriptor that was found stays found. -/
theorem Found.append {history : History} {descriptor : DaemonDescriptor}
    (found : Found history descriptor) (after : History) :
    Found (history ++ after) descriptor := by
  obtain ⟨value, read, safe⟩ := found.read
  exact ⟨found.healthy.more [] after, value, List.mem_append_left after read, safe⟩

/-! ## Plain calls -/

/-- A call that neither takes nor releases the lock, nor launches a daemon. -/
def Call.plain : Call → Bool
  | .acquireStartLock | .releaseStartLock _ | .launch _ _ => false
  | _ => true

/-- An entry of a plain call. -/
def Entry.plain : Entry Call Call.Reply Failure → Bool
  | .called call _ | .returned call _ => Call.plain call

/-- What the history of an await adds. -/
abbrev exchange (call : Call) (aborted : Bool) (outcome : Except Failure call.Reply) : History :=
  [.called call aborted, .returned call outcome]

/-- The lock that is held is counted on from one history to the next. -/
theorem held_append (first second : History) :
    held (first ++ second) = second.foldl heldAfter (held first) := List.foldl_append

/-- A plain call leaves the lock. -/
theorem heldAfter_plain {entry : Entry Call Call.Reply Failure} (plain : Entry.plain entry = true)
    (lease : Option StartLockLease) : heldAfter lease entry = lease := by
  cases entry with
  | called call aborted =>
    cases call with
    | releaseStartLock token => cases plain
    | _ => rfl
  | returned call outcome =>
    cases call with
    | acquireStartLock => cases plain
    | _ => rfl

/-- A plain call launches nothing. -/
theorem launch_plain {entry : Entry Call Call.Reply Failure} (plain : Entry.plain entry = true) :
    Entry.launch? entry = none := by
  cases entry with
  | called call aborted =>
    cases call with
    | launch token handoffToken => cases plain
    | _ => rfl
  | returned call outcome => rfl

/-- What a round goes on with: the lock that it has, and whether it has launched a daemon. -/
structure At (startLock : Option StartLockLease) (launched : Option Launched)
    (history : History) : Prop where
  held : held history = startLock
  unlaunched : launched = none → launches history = []
  locked : startLock = none → launched = none

/-- Plain calls leave the lock. -/
theorem held_plain {after : History} (plain : ∀ entry ∈ after, Entry.plain entry = true)
    (before : History) : held (before ++ after) = held before := by
  rw [held_append]
  induction after generalizing before with
  | nil => rfl
  | cons entry after inductionHypothesis =>
    rw [List.foldl_cons, heldAfter_plain (plain entry List.mem_cons_self)]
    exact inductionHypothesis (fun other member => plain other (List.mem_cons_of_mem _ member)) _

/-- Plain calls launch nothing. -/
theorem launches_plain {after : History} (plain : ∀ entry ∈ after, Entry.plain entry = true)
    (before : History) : launches (before ++ after) = launches before := by
  have none' : after.filterMap Entry.launch? = [] :=
    List.filterMap_eq_nil_iff.mpr fun entry member => launch_plain (plain entry member)
  rw [launches, List.filterMap_append, none', List.append_nil, ← launches]

/-- Plain calls leave a round where it is. -/
theorem At.plain {startLock : Option StartLockLease} {launched : Option Launched}
    {before : History} (here : At startLock launched before) {after : History}
    (plain : ∀ entry ∈ after, Entry.plain entry = true) :
    At startLock launched (before ++ after) where
  held := by rw [held_plain plain, here.held]
  unlaunched none' := by rw [launches_plain plain, here.unlaunched none']
  locked := here.locked

/-- The two entries of a plain call are plain. -/
theorem plain_exchange {call : Call} (plain : Call.plain call = true) (aborted : Bool)
    (outcome : Except Failure call.Reply) :
    ∀ entry ∈ exchange call aborted outcome, Entry.plain entry = true := by
  intro entry member
  simp only [List.mem_cons, List.not_mem_nil, or_false] at member
  rcases member with rfl | rfl <;> exact plain

/-- A plain call is always permitted. -/
theorem permits_plain {call : Call} (plain : Call.plain call = true) (aborted : Bool)
    (history : History) : Permitted aborted history call := by
  constructor
  · rintro token handoffToken rfl
    cases plain
  · rintro rfl
    cases plain
  · rintro token rfl
    cases plain

/-- Plain calls, from a history on, that something is known of. -/
def Follows (origin : History) (known : History → Prop) (history : History) : Prop :=
  ∃ after, history = origin ++ after ∧ (∀ entry ∈ after, Entry.plain entry = true) ∧ known after

/-- Nothing has followed yet. -/
theorem Follows.here {origin : History} {known : History → Prop} (nothing : known []) :
    Follows origin known origin :=
  ⟨[], (List.append_nil origin).symm, by simp, nothing⟩

/-- What is known of what followed may be weakened. -/
theorem Follows.imp {origin history : History} {known other : History → Prop}
    (follows : Follows origin known history) (implies : ∀ after, known after → other after) :
    Follows origin other history := by
  obtain ⟨after, same, plain, facts⟩ := follows
  exact ⟨after, same, plain, implies after facts⟩

/-- A plain call may follow. -/
theorem Follows.more {origin history : History} {known other : History → Prop}
    (follows : Follows origin known history) {call : Call} (plain : Call.plain call = true)
    {aborted : Bool} {outcome : Except Failure call.Reply}
    (adds : ∀ after, known after → other (after ++ exchange call aborted outcome)) :
    Follows origin other (history ++ exchange call aborted outcome) := by
  obtain ⟨after, rfl, plains, facts⟩ := follows
  refine ⟨after ++ exchange call aborted outcome, List.append_assoc .., ?_,
    adds after facts⟩
  intro entry member
  rcases List.mem_append.mp member with earlier | added
  · exact plains entry earlier
  · exact plain_exchange plain aborted outcome entry added

/-- What follows leaves a round where it is. -/
theorem Follows.at {origin history : History} {known : History → Prop}
    {startLock : Option StartLockLease} {launched : Option Launched}
    (follows : Follows origin known history) (here : At startLock launched origin) :
    At startLock launched history := by
  obtain ⟨after, rfl, plain, facts⟩ := follows
  exact here.plain plain

/-- A plain call, of which each outcome makes something known. -/
theorem follows_triple {origin : History} {known throws : History → Prop} {call : Call}
    {returns : call.Reply → History → Prop} (plain : Call.plain call = true)
    (answered : ∀ aborted value after, known after →
      returns value (after ++ exchange call aborted (.ok value)))
    (failed : ∀ aborted failure after, known after →
      throws (after ++ exchange call aborted (.error failure))) :
    Triple Permitted (Follows origin known) (awaited call)
      (fun value => Follows origin (returns value)) (Follows origin throws) := by
  apply Triple.await
  · exact fun aborted history _ => permits_plain plain aborted history
  · exact fun aborted history value follows => follows.more plain (answered aborted value)
  · exact fun aborted history failure follows => follows.more plain (failed aborted failure)

/-- What holds from each history on holds from all of them. -/
theorem each_triple {Result : Type} {program : Async Result} {before throws : History → Prop}
    {returns : Result → History → Prop}
    (triples : ∀ origin, before origin →
      Triple Permitted (fun history => history = origin) program returns throws) :
    Triple Permitted before program returns throws :=
  fun aborted history known => triples history known aborted history rfl

/-! ## Health -/

/-- A history in which no daemon has answered for its health. -/
def Unanswered (history : History) : Prop :=
  ∀ descriptor timeoutMs reply, .returned (.health descriptor timeoutMs) (.ok reply) ∉ history

/-- What a probe has found out. -/
structure Probed (descriptor : DaemonDescriptor) (state : Probe) (history : History) : Prop where
  healthy : Healthy history descriptor ↔ state = .healthy
  incompatible : Incompatible history descriptor ↔ state = .incompatible

/-- A daemon that did not answer is unreachable. -/
theorem Unanswered.probed {history : History} (unanswered : Unanswered history)
    {descriptor : DaemonDescriptor} (same : descriptor.protocolVersion = daemonProtocolVersion) :
    Probed descriptor .unreachable history := by
  constructor
  · refine iff_of_false ?_ Probe.noConfusion
    rintro ⟨_, timeoutMs, reply, answered, _⟩
    exact unanswered descriptor timeoutMs reply answered
  · refine iff_of_false ?_ Probe.noConfusion
    rintro (other | ⟨timeoutMs, reply, answered, _⟩)
    · exact other same
    · exact unanswered descriptor timeoutMs reply answered

/-- The call is not answered with what a daemon says of its health. -/
def Silent (call : Call) (outcome : Except Failure call.Reply) : Prop :=
  ∀ descriptor timeoutMs reply, (.returned call outcome : Entry Call Call.Reply Failure) ≠
    .returned (.health descriptor timeoutMs) (.ok reply)

section
variable {history : History} {call : Call} {outcome : Except Failure call.Reply} {aborted : Bool}

/-- A silent call adds no answer about the health of a daemon. -/
theorem answer_more (silent : Silent call outcome) (descriptor : DaemonDescriptor)
    (timeoutMs : Int) (reply : Js) :
    .returned (.health descriptor timeoutMs) (.ok reply) ∈ history ++ exchange call aborted outcome ↔
      .returned (.health descriptor timeoutMs) (.ok reply) ∈ history := by
  have other := (silent descriptor timeoutMs reply).symm
  simp only [List.mem_append, List.mem_cons, List.not_mem_nil, or_false, reduceCtorEq, false_or]
  exact or_iff_left other

/-- A silent call leaves a daemon unanswered. -/
theorem Unanswered.more (unanswered : Unanswered history) (silent : Silent call outcome) :
    Unanswered (history ++ exchange call aborted outcome) :=
  fun descriptor timeoutMs reply =>
    mt (answer_more silent descriptor timeoutMs reply).mp (unanswered descriptor timeoutMs reply)

/-- A silent call makes no daemon healthy. -/
theorem healthy_more (silent : Silent call outcome) (descriptor : DaemonDescriptor) :
    Healthy (history ++ exchange call aborted outcome) descriptor ↔ Healthy history descriptor := by
  simp only [Healthy, answer_more silent]

/-- A silent call makes no daemon incompatible. -/
theorem incompatible_more (silent : Silent call outcome) (descriptor : DaemonDescriptor) :
    Incompatible (history ++ exchange call aborted outcome) descriptor ↔
      Incompatible history descriptor := by
  simp only [Incompatible, answer_more silent]

/-- A silent call leaves a daemon gone. -/
theorem Gone.more {descriptor : DaemonDescriptor} (gone : Gone history descriptor)
    (silent : Silent call outcome) :
    Gone (history ++ exchange call aborted outcome) descriptor where
  unhealthy := mt (healthy_more silent descriptor).mp gone.unhealthy
  dead incompatible :=
    List.mem_append_left _ (gone.dead ((incompatible_more silent descriptor).mp incompatible))

end

/-- The first answer of a daemon for its health is what the probe judges. -/
theorem Unanswered.answered {history : History} (unanswered : Unanswered history)
    {descriptor : DaemonDescriptor} (same : descriptor.protocolVersion = daemonProtocolVersion)
    (timeoutMs : Int) (reply : Js) (aborted : Bool) :
    Probed descriptor (judged descriptor reply)
      (history ++ exchange (.health descriptor timeoutMs) aborted (.ok reply)) := by
  have only (other : Int) (answer : Js)
      (member : .returned (.health descriptor other) (.ok answer) ∈
        history ++ exchange (.health descriptor timeoutMs) aborted (.ok reply)) :
      answer = reply := by
    rcases List.mem_append.mp member with earlier | added
    · exact absurd earlier (unanswered descriptor other answer)
    · simp only [List.mem_cons, List.not_mem_nil, or_false, reduceCtorEq, false_or] at added
      cases added
      rfl
  constructor
  · constructor
    · rintro ⟨_, other, answer, member, judgment⟩
      rw [← only other answer member, judgment]
    · exact fun judgment => ⟨same, timeoutMs, reply, by simp, judgment⟩
  · constructor
    · rintro (different | ⟨other, answer, member, judgment⟩)
      · exact absurd same different
      · rw [← only other answer member, judgment]
    · exact fun judgment => .inr ⟨timeoutMs, reply, by simp, judgment⟩

/-- At first no daemon has answered. -/
theorem unanswered_nil : Unanswered [] := fun _ _ _ => List.not_mem_nil

variable (deadline : Int)

/-- A probe finds out what it answers, and follows with plain calls only. -/
theorem probe_triple (descriptor : DaemonDescriptor) (origin : History) {throws : History → Prop} :
    Triple Permitted (fun history => history = origin) (probe descriptor deadline)
      (fun state => Follows origin (Probed descriptor state)) throws := by
  rw [probe]
  split
  next other =>
    apply Triple.pure
    rintro _ rfl
    apply Follows.here
    constructor
    · exact iff_of_false (fun healthy => other healthy.1) Probe.noConfusion
    · exact iff_of_true (.inl other) rfl
  next same =>
    have same : descriptor.protocolVersion = daemonProtocolVersion := Decidable.of_not_not same
    have asked (timeoutMs : Int) : Triple Permitted (Follows origin Unanswered)
        (do
          let reply ← awaited (.health descriptor timeoutMs)
          return judged descriptor reply)
        (fun state => Follows origin (Probed descriptor state))
        (Follows origin Unanswered) := by
      have answer : Triple Permitted (Follows origin Unanswered)
          (awaited (.health descriptor timeoutMs))
          (fun reply => Follows origin (Probed descriptor (judged descriptor reply)))
          (Follows origin Unanswered) := by
        apply follows_triple rfl
        · exact fun aborted reply after unanswered =>
            unanswered.answered same timeoutMs reply aborted
        · exact fun aborted failure after unanswered =>
            unanswered.more fun _ _ _ equal => by cases equal
      exact Triple.bind answer fun reply => Triple.pure fun _ probed => probed
    have clock : Triple Permitted (fun history => history = origin) (awaited .now)
        (fun _ => Follows origin Unanswered) (Follows origin Unanswered) := by
      have later : Triple Permitted (Follows origin Unanswered) (awaited .now)
          (fun _ => Follows origin Unanswered) (Follows origin Unanswered) := by
        apply follows_triple rfl
        · exact fun aborted value after unanswered =>
            unanswered.more fun _ _ _ equal => by cases equal
        · exact fun aborted failure after unanswered =>
            unanswered.more fun _ _ _ equal => by cases equal
      refine later.imp ?_ (fun _ _ follows => follows) fun _ follows => follows
      rintro _ rfl
      exact Follows.here unanswered_nil
    have unreached : Triple Permitted (Follows origin Unanswered) (pure Probe.unreachable)
        (fun state => Follows origin (Probed descriptor state)) throws :=
      Triple.pure fun _ follows => follows.imp fun _ unanswered => unanswered.probed same
    refine Triple.tryCatch ?_ fun _ => unreached
    refine Triple.bind clock fun now => ?_
    dsimp only
    split
    next => exact Triple.pure fun _ follows => follows.imp fun _ unanswered => unanswered.probed same
    next => exact asked _

/-- What the client makes of a probe that it goes on after. -/
structure Weighed (descriptor : DaemonDescriptor) (state : Probe) (history : History) : Prop where
  healthy : state = .healthy → Healthy history descriptor
  gone : state ≠ .healthy → Gone history descriptor

/-- A daemon that is not incompatible is weighed by its probe. -/
theorem Probed.weighed {descriptor : DaemonDescriptor} {state : Probe} {history : History}
    (probed : Probed descriptor state history) (compatible : state ≠ .incompatible) :
    Weighed descriptor state history where
  healthy := probed.healthy.mpr
  gone unhealthy :=
    ⟨mt probed.healthy.mp unhealthy, fun other => absurd (probed.incompatible.mp other) compatible⟩

/-- An incompatible daemon whose process is dead is weighed as well. -/
theorem Probed.recovered {descriptor : DaemonDescriptor} {state : Probe} {history : History}
    (probed : Probed descriptor state history) (incompatible : state = .incompatible)
    (aborted : Bool) :
    Weighed descriptor state
      (history ++ exchange .descriptorOwnerStatus aborted (.ok .dead)) := by
  subst incompatible
  constructor
  · exact fun healthy => Probe.noConfusion healthy
  · intro _
    constructor
    · rw [healthy_more fun _ _ _ equal => by cases equal]
      exact mt probed.healthy.mp Probe.noConfusion
    · exact fun _ => by simp

/-- An incompatible daemon may be replaced where its process is dead. -/
theorem canRecoverIncompatibleDaemon_triple (descriptor : DaemonDescriptor) (origin : History) :
    Triple Permitted (Follows origin (Probed descriptor .incompatible))
      canRecoverIncompatibleDaemon
      (fun recoverable => Follows origin fun after =>
        recoverable = true → Weighed descriptor .incompatible after)
      (Follows origin fun _ => True) := by
  have status : Triple Permitted (Follows origin (Probed descriptor .incompatible))
      (awaited .descriptorOwnerStatus)
      (fun (status : OwnerStatus) => Follows origin fun after =>
        status = .dead → Weighed descriptor .incompatible after)
      (Follows origin fun _ => True) := by
    apply follows_triple rfl
    · rintro aborted status after probed rfl
      exact probed.recovered rfl aborted
    · exact fun _ _ _ _ => trivial
  refine Triple.bind status fun (status : OwnerStatus) => ?_
  apply Triple.pure
  intro history follows
  exact follows.imp fun after weighed dead => weighed (of_decide_eq_true dead)

/-- Behind a probe a daemon is weighed, or the client gives up. -/
theorem probeOrThrow_triple (descriptor : DaemonDescriptor) (origin : History) :
    Triple Permitted (fun history => history = origin) (probeOrThrow descriptor deadline)
      (fun state => Follows origin (Weighed descriptor state)) (Follows origin fun _ => True) := by
  refine Triple.bind (probe_triple deadline descriptor origin) fun state => ?_
  cases state with
  | healthy =>
    exact Triple.pure fun _ follows => follows.imp fun _ probed => probed.weighed Probe.noConfusion
  | unreachable =>
    exact Triple.pure fun _ follows => follows.imp fun _ probed => probed.weighed Probe.noConfusion
  | incompatible =>
    refine Triple.bind (canRecoverIncompatibleDaemon_triple descriptor origin) fun recoverable => ?_
    cases recoverable with
    | true => exact Triple.pure fun _ follows => follows.imp fun _ weighed => weighed rfl
    | false => exact Triple.throw fun _ follows => follows.imp fun _ _ => trivial

/-! ## What was read -/

/-- What the client knows, since it read the descriptor, of the daemon that it found. -/
def Considered (value : Option Js) (seen : Option (DaemonDescriptor × Probe))
    (history : History) : Prop :=
  value.bind isSafeDescriptor = seen.map Prod.fst ∧
    ∀ descriptor state, seen = some (descriptor, state) → Weighed descriptor state history

/-- Behind it what the storage held has been considered. -/
theorem considered_triple (value : Option Js) (origin : History) :
    Triple Permitted (fun history => history = origin) (considered value deadline)
      (fun seen => Follows origin (Considered value seen)) (Follows origin fun _ => True) := by
  rw [considered]
  split
  next refused =>
    apply Triple.pure
    rintro _ rfl
    exact Follows.here ⟨refused, by simp⟩
  next descriptor safe =>
    refine Triple.bind (probeOrThrow_triple deadline descriptor origin) fun state => ?_
    apply Triple.pure
    intro history follows
    refine follows.imp fun after weighed => ⟨safe, ?_⟩
    rintro _ _ ⟨⟩
    exact weighed

/-- The descriptor was read last, and what was found since is known. -/
def Read (value : Option Js) (known : History → Prop) (history : History) : Prop :=
  ∃ before after, history = before ++ .returned .readDescriptor (.ok value) :: after ∧
    held before = held history ∧ known after

/-- Where what was read is no healthy daemon, none serves. -/
theorem Read.unserved {value : Option Js} {seen : Option (DaemonDescriptor × Probe)}
    {history : History} (read : Read value (Considered value seen) history)
    (unhealthy : ∀ descriptor, seen ≠ some (descriptor, .healthy)) : Unserved history := by
  obtain ⟨before, after, same, kept, safe, weighed⟩ := read
  refine ⟨before, value, after, same, kept, ?_⟩
  intro descriptor found
  obtain ⟨⟨_, state⟩, known, rfl⟩ := Option.map_eq_some_iff.mp (safe.symm.trans found)
  refine (weighed _ state known).gone ?_
  rintro rfl
  exact unhealthy _ known

/-- A healthy daemon that was read is found. -/
theorem Read.found {value : Option Js} {descriptor : DaemonDescriptor} {history : History}
    (read : Read value (Considered value (some (descriptor, .healthy))) history) :
    Found history descriptor := by
  obtain ⟨before, after, rfl, _, safe, weighed⟩ := read
  obtain ⟨version, timeoutMs, reply, answered, judgment⟩ := (weighed descriptor _ rfl).healthy rfl
  obtain ⟨read, known, safe⟩ := Option.bind_eq_some_iff.mp safe
  subst known
  constructor
  · exact ⟨version, timeoutMs, reply, by simp [answered], judgment⟩
  · exact ⟨read, by simp, safe⟩

section
variable {startLock : Option StartLockLease} {launched : Option Launched}

/-- A plain call in a round. -/
theorem at_triple {call : Call} (plain : Call.plain call = true) :
    Triple Permitted (At startLock launched) (awaited call)
      (fun _ => At startLock launched) (At startLock launched) := by
  apply Triple.await
  · exact fun aborted history _ => permits_plain plain aborted history
  · exact fun aborted history value here => here.plain (plain_exchange plain aborted (.ok value))
  · exact fun aborted history failure here => here.plain (plain_exchange plain aborted (.error failure))

/-- The client reads the descriptor, considers the daemon, and goes on. -/
theorem reading_triple {Result : Type} {next : Option (DaemonDescriptor × Probe) → Async Result}
    {returns : Result → History → Prop} {throws : History → Prop}
    (failed : ∀ history, At startLock launched history → throws history)
    (following : ∀ seen, Triple Permitted
      (fun history => At startLock launched history ∧
        ∃ value, Read value (Considered value seen) history)
      (next seen) returns throws) :
    Triple Permitted (At startLock launched)
      (do
        let value ← awaited .readDescriptor
        let seen ← considered value deadline
        next seen)
      returns throws := by
  have reads : Triple Permitted (At startLock launched) (awaited .readDescriptor)
      (fun value history => At startLock launched history ∧ Read value (· = []) history)
      throws := by
    apply Triple.await
    · exact fun aborted history _ => permits_plain rfl aborted history
    · intro aborted history value here
      have there : At startLock launched (history ++ exchange .readDescriptor aborted (.ok value)) :=
        here.plain (plain_exchange rfl aborted (.ok value))
      refine ⟨there, history ++ [.called .readDescriptor aborted], [], ?_, ?_, rfl⟩
      · rw [List.append_assoc, List.singleton_append]
      · rw [there.held, held_append, here.held]
        rfl
    · intro aborted history failure here
      exact failed _ (here.plain (plain_exchange rfl aborted (.error failure)))
  refine Triple.bind reads fun value => ?_
  have weighed : Triple Permitted
      (fun history => At startLock launched history ∧ Read value (· = []) history)
      (considered value deadline)
      (fun seen history => At startLock launched history ∧ Read value (Considered value seen) history)
      throws := by
    apply each_triple
    rintro origin ⟨here, before, after, same, kept, rfl⟩
    refine (considered_triple deadline value origin).imp (fun _ equal => equal) ?_ ?_
    · intro seen history follows
      refine ⟨follows.at here, ?_⟩
      obtain ⟨after, rfl, plain, considered⟩ := follows
      refine ⟨before, after, ?_, ?_, considered⟩
      · rw [same, List.append_assoc, List.singleton_append]
      · rw [held_plain plain, kept]
    · exact fun history follows => failed history (follows.at here)
  refine Triple.bind weighed fun seen => ?_
  exact (following seen).imp (fun history facts => ⟨facts.1, value, facts.2⟩)
    (fun _ _ known => known) fun _ known => known

end

/-! ## A round -/

/-- How a round that goes on with a lock and a launch ends. -/
def Concludes (startLock : Option StartLockLease) (launched : Option Launched) :
    Round → History → Prop
  | .done descriptor, history => held history = startLock ∧ Found history descriptor
  | .again startLock launched, history => At startLock launched history
  | .expired, history => At startLock launched history

section
variable {startLock : Option StartLockLease} {launched : Option Launched}

/-- The client sleeps before the next round. -/
theorem sleep_triple {throws : History → Prop}
    (failed : ∀ history, At startLock launched history → throws history) :
    Triple Permitted (At startLock launched)
      (do
        awaited .sleep
        return .again startLock launched)
      (Concludes startLock launched) throws :=
  Triple.bind ((at_triple rfl).imp (fun _ here => here) (fun _ _ here => here) failed)
    fun _ => Triple.pure fun _ here => here

/-- While another one starts a daemon nothing is launched, and the lock stays as it is. -/
theorem watch_triple (coherent : startLock = none → launched = none) :
    Triple Permitted (At startLock launched) (watch startLock launched)
      (Concludes startLock launched) (fun history => held history = startLock) := by
  have kept (history : History) (here : At startLock launched history) :
      held history = startLock := here.held
  cases launched with
  | none => exact sleep_triple kept
  | some started =>
    have plain {call : Call} (plain : Call.plain call = true) := (at_triple plain).imp
      (fun _ (here : At startLock (some started) _) => here) (fun _ _ here => here) kept
    refine Triple.bind (plain rfl) fun (exitCode : Option Int) => ?_
    cases exitCode with
    | none => exact sleep_triple kept
    | some exitCode =>
      refine Triple.bind (plain rfl) fun _ => ?_
      refine Triple.bind (plain rfl) fun tail => ?_
      exact Triple.throw kept

/-- A silent plain call leaves the daemon unserved. -/
theorem Unserved.more {history : History} (unserved : Unserved history) {call : Call}
    {outcome : Except Failure call.Reply} (silent : Silent call outcome)
    (plain : Call.plain call = true) (aborted : Bool) :
    Unserved (history ++ exchange call aborted outcome) := by
  obtain ⟨before, value, after, same, kept, gone⟩ := unserved
  refine ⟨before, value, after ++ exchange call aborted outcome, ?_, ?_, ?_⟩
  · rw [same, List.append_assoc, List.cons_append]
  · rw [kept, held_plain (plain_exchange plain aborted outcome)]
  · exact fun descriptor found => (gone descriptor found).more silent

/-- The client launches a daemon where it has seen that none serves. -/
theorem launching_triple (host : Host) (lease : StartLockLease) :
    Triple Permitted (fun history => At (some lease) none history ∧ Unserved history)
      (do
        let token : JsString ← awaited .randomUUID
        let captured : Bool ← tryCatch (awaited (.launch token lease.handoffToken)) fun _ =>
          throw (js "PTY daemon could not be launched.")
        if captured then
          return .again (some lease) (some ⟨token, host.launchOptions token lease.handoffToken⟩)
        else throw (js "PTY daemon stderr could not be captured."))
      (Concludes (some lease) none) (fun history => held history = some lease) := by
  have named : Triple Permitted (fun history => At (some lease) none history ∧ Unserved history)
      (awaited .randomUUID) (fun _ history => At (some lease) none history ∧ Unserved history)
      (fun history => held history = some lease) := by
    apply Triple.await
    · exact fun aborted history _ => permits_plain rfl aborted history
    · rintro aborted history token ⟨here, unserved⟩
      exact ⟨here.plain (plain_exchange rfl aborted (.ok token)),
        unserved.more (fun _ _ _ equal => by cases equal) rfl aborted⟩
    · rintro aborted history failure ⟨here, _⟩
      exact (here.plain (plain_exchange rfl aborted (.error failure))).held
  refine Triple.bind named fun token => ?_
  have launch : Triple Permitted
      (fun history => At (some lease) none history ∧ Unserved history)
      (awaited (.launch token lease.handoffToken)) (fun _ history => held history = some lease)
      (fun history => held history = some lease) := by
    have kept (history : History) (here : held history = some lease) (aborted : Bool)
        (outcome : Except Failure Bool) :
        held (history ++ exchange (.launch token lease.handoffToken) aborted outcome) =
          some lease := by
      rw [held_append, here]
      rfl
    apply Triple.await
    · rintro aborted history ⟨here, unserved⟩
      constructor
      · rintro _ _ ⟨⟩
        exact ⟨here.unlaunched rfl, unserved, lease, here.held, rfl⟩
      · exact fun equal => by cases equal
      · exact fun _ equal => by cases equal
    · exact fun aborted history value known => kept history known.1.held aborted (.ok value)
    · exact fun aborted history failure known => kept history known.1.held aborted (.error failure)
  refine Triple.bind (Triple.tryCatch launch fun _ => Triple.throw fun _ here => here)
    fun (captured : Bool) => ?_
  cases captured with
  | true =>
    apply Triple.pure
    intro history here
    constructor
    · exact here
    · exact fun absent => by cases absent
    · exact fun absent => by cases absent
  | false => exact Triple.throw fun _ here => here

/-- Under the lock a daemon is launched where none serves. -/
theorem launchUnder_triple (host : Host) (lease : StartLockLease) :
    Triple Permitted (At (some lease) none) (launchUnder host deadline lease)
      (Concludes (some lease) none) (fun history => held history = some lease) := by
  refine reading_triple deadline (fun _ here => here.held) fun seen => ?_
  have launching (unhealthy : ∀ descriptor, seen ≠ some (descriptor, .healthy)) :=
    (launching_triple host lease).imp
      (fun history (known : At (some lease) none history ∧
        ∃ value, Read value (Considered value seen) history) =>
        ⟨known.1, known.2.choose_spec.unserved unhealthy⟩)
      (fun _ _ known => known) fun _ here => here
  rcases seen with _ | ⟨descriptor, _ | _ | _⟩
  · exact launching fun _ equal => by cases equal
  · exact Triple.pure fun _ known => ⟨known.1.held, known.2.choose_spec.found⟩
  · exact launching fun _ equal => by cases equal
  · exact launching fun _ equal => by cases equal

/-- The client takes the start lock, or waits. -/
theorem acquire_triple :
    Triple Permitted (At none none)
      (do
        let acquired : Option StartLockLease ← awaited .acquireStartLock
        match acquired with
        | some lease => return .again (some lease) none
        | none => watch none none)
      (Concludes none none) (fun history => held history = none) := by
  have acquire : Triple Permitted (At none none) (awaited .acquireStartLock)
      (fun (acquired : Option StartLockLease) => At acquired none)
      (fun history => held history = none) := by
    have unlaunched (history : History) (here : At none none history) (aborted : Bool)
        (outcome : Except Failure (Option StartLockLease)) :
        launches (history ++ exchange .acquireStartLock aborted outcome) = [] := by
      rw [launches, List.filterMap_append, ← launches, here.unlaunched rfl]
      rfl
    apply Triple.await
    · intro aborted history here
      constructor
      · exact fun _ _ equal => by cases equal
      · exact fun _ => here.held
      · exact fun _ equal => by cases equal
    · intro aborted history acquired here
      refine ⟨?_, fun _ => unlaunched history here aborted (.ok acquired), fun _ => rfl⟩
      rw [held_append, here.held]
      cases acquired with
      | none => rfl
      | some lease => rfl
    · intro aborted history failure here
      rw [held_append, here.held]
      rfl
  refine Triple.bind acquire fun (acquired : Option StartLockLease) => ?_
  cases acquired with
  | some lease => exact Triple.pure fun _ here => here
  | none => exact watch_triple fun _ => rfl

/-- Where no daemon was found the round takes the lock, or goes on with it. -/
theorem proceed_triple (host : Host) :
    Triple Permitted (At startLock launched) (proceed host deadline startLock launched)
      (Concludes startLock launched) (fun history => held history = startLock) := by
  cases startLock with
  | none =>
    cases launched with
    | none => exact acquire_triple
    | some started =>
      intro aborted history here
      cases here.locked rfl
  | some lease =>
    cases launched with
    | none => exact launchUnder_triple deadline host lease
    | some started => exact watch_triple fun absent => by cases absent

/-- A round ends with a daemon that was found, or where the next one begins. -/
theorem round_triple (host : Host) :
    Triple Permitted (At startLock launched) (round host deadline startLock launched)
      (Concludes startLock launched) (fun history => held history = startLock) := by
  have kept (history : History) (here : At startLock launched history) :
      held history = startLock := here.held
  have plain {call : Call} (plain : Call.plain call = true) := (at_triple plain).imp
    (fun _ (here : At startLock launched _) => here) (fun _ _ here => here) kept
  refine Triple.bind (plain rfl) fun (now : Int) => ?_
  by_cases late : deadline ≤ now
  · simp only [if_pos late]
    exact Triple.pure fun _ here => here
  · simp only [if_neg late]
    refine reading_triple deadline kept fun seen => ?_
    have occupied : Triple Permitted (At startLock launched)
        (do
          let alive : Bool ← awaited .descriptorOwnerAlive
          if alive then
            awaited .sleep
            return .again startLock launched
          else proceed host deadline startLock launched)
        (Concludes startLock launched) (fun history => held history = startLock) := by
      refine Triple.bind (plain rfl) fun (alive : Bool) => ?_
      cases alive with
      | true => exact sleep_triple kept
      | false => exact proceed_triple deadline host
    have going {program : Async Round} := fun (triple : Triple Permitted (At startLock launched)
        program (Concludes startLock launched) (fun history => held history = startLock)) =>
      triple.imp (fun history (known : At startLock launched history ∧
        ∃ value, Read value (Considered value seen) history) => known.1)
        (fun _ _ known => known) fun _ here => here
    rcases seen with _ | ⟨descriptor, _ | _ | _⟩
    · exact going (proceed_triple deadline host)
    · exact Triple.pure fun _ known => ⟨known.1.held, known.2.choose_spec.found⟩
    · exact going occupied
    · exact going occupied

end

/-! ## The loop -/

/-- The lock that the client has is released, and what else is known stays. -/
theorem released_triple (startLock : Option StartLockLease) (known : History → Prop)
    (kept : ∀ history more, known history → known (history ++ more)) :
    Triple Permitted (fun history => held history = startLock ∧ known history)
      (released startLock) (fun _ history => held history = none ∧ known history)
      (fun history => held history = none) := by
  cases startLock with
  | none => exact Triple.pure fun _ facts => facts
  | some lease =>
    have dropped (history : History) (aborted : Bool) (outcome : Except Failure Unit) :
        held (history ++ exchange (.releaseStartLock lease.token) aborted outcome) = none := by
      rw [held_append]
      rfl
    apply Triple.await
    · rintro aborted history ⟨holds, _⟩
      constructor
      · exact fun _ _ equal => by cases equal
      · exact fun equal => by cases equal
      · rintro _ ⟨⟩
        exact ⟨lease, holds, rfl⟩
    · exact fun aborted history value facts => ⟨dropped history aborted (.ok value),
        kept history _ facts.2⟩
    · exact fun aborted history failure facts => dropped history aborted (.error failure)

/-- The lock is released before the client throws. -/
theorem thrown_triple (startLock : Option StartLockLease) (failure : Failure)
    {returns : DaemonDescriptor → History → Prop} :
    Triple Permitted (fun history => held history = startLock)
      (do
        released startLock
        throw failure)
      returns (fun history => held history = none) := by
  refine Triple.bind ((released_triple startLock (fun _ => True) fun _ _ _ => trivial).imp
    (fun _ holds => ⟨holds, trivial⟩) (fun _ _ facts => facts.1) fun _ holds => holds) fun _ => ?_
  exact Triple.throw fun _ holds => holds

/-- When the time is over the lock is released. -/
theorem expire_triple (startLock : Option StartLockLease) (launched : Option Launched)
    {returns : DaemonDescriptor → History → Prop} :
    Triple Permitted (fun history => held history = startLock) (expire startLock launched)
      returns (fun history => held history = none) := by
  have tail : Triple Permitted (fun history => held history = none) (awaited .stderr)
      (fun _ history => held history = none) (fun history => held history = none) := by
    apply Triple.await
    · exact fun aborted history _ => permits_plain rfl aborted history
    · intro aborted history value free
      rw [held_plain (plain_exchange rfl aborted (.ok value)), free]
    · intro aborted history failure free
      rw [held_plain (plain_exchange rfl aborted (.error failure)), free]
  refine Triple.bind ((released_triple startLock (fun _ => True) fun _ _ _ => trivial).imp
    (fun _ holds => ⟨holds, trivial⟩) (fun _ _ facts => facts.1) fun _ holds => holds) fun _ => ?_
  exact Triple.bind tail fun _ => Triple.throw fun _ free => free

/-- However many rounds there are, the lock is released in the end. -/
theorem loop_triple (host : Host) (rounds : Nat) (startLock : Option StartLockLease)
    (launched : Option Launched) :
    Triple Permitted (At startLock launched) (loop host deadline rounds startLock launched)
      (fun descriptor history => held history = none ∧ Found history descriptor)
      (fun history => held history = none) := by
  induction rounds generalizing startLock launched with
  | zero =>
    exact (expire_triple startLock launched).imp (fun _ here => here.held)
      (fun _ _ known => known) fun _ free => free
  | succ rounds inductionHypothesis =>
    intro aborted history here
    refine meets_andThen.mpr ((round_triple deadline host aborted history here).imp ?_)
    intro later history outcome concluded
    rcases outcome with failure | ⟨descriptor⟩ | ⟨startLock, launched⟩ | _
    · exact thrown_triple startLock failure later history concluded
    · have free := released_triple startLock (Found · descriptor)
        fun _ more found => found.append more
      exact (Triple.bind free fun _ => Triple.pure fun _ facts => facts) later history concluded
    · exact inductionHypothesis startLock launched later history concluded
    · exact expire_triple startLock launched later history concluded.held

/-- What the client returns a descriptor for. -/
def Returned (known : Option DaemonDescriptor) (descriptor : DaemonDescriptor)
    (history : History) : Prop :=
  held history = none ∧ Healthy history descriptor ∧
    (known = some descriptor ∨ ∃ value, .returned .readDescriptor (.ok (some value)) ∈ history ∧
      isSafeDescriptor value = some descriptor)

/-- The client returns a daemon that was known or found, and without the lock. -/
theorem ensureDaemon_triple (host : Host) (rounds : Nat) (known : Option DaemonDescriptor) :
    Triple Permitted (fun history => history = []) (ensureDaemon host rounds known)
      (Returned known) (fun history => held history = none) := by
  have clock : Triple Permitted (fun history => history = []) (awaited .now)
      (fun _ => At none none) (fun history => held history = none) :=
    (at_triple rfl).imp (fun _ empty => empty ▸ ⟨rfl, fun _ => rfl, fun _ => rfl⟩)
      (fun _ _ here => here) fun _ here => here.held
  have looped (deadline : Int) : Triple Permitted (At none none)
      (loop host deadline rounds none none) (Returned known)
      (fun history => held history = none) :=
    (loop_triple deadline host rounds none none).imp (fun _ here => here)
      (fun _ _ facts => ⟨facts.1, facts.2.healthy, .inr facts.2.read⟩) fun _ free => free
  refine Triple.bind clock fun (startedAt : Int) => ?_
  cases known with
  | none => exact looped _
  | some descriptor =>
    have asked : Triple Permitted (At none none)
        (probeOrThrow descriptor (startedAt + daemonStartTimeoutMs))
        (fun state history => At none none history ∧
          (state = .healthy → Healthy history descriptor))
        (fun history => held history = none) := by
      refine each_triple fun origin here => ?_
      refine (probeOrThrow_triple _ descriptor origin).imp (fun _ same => same) ?_
        fun _ follows => (follows.at here).held
      intro state history follows
      refine ⟨follows.at here, fun healthy => ?_⟩
      obtain ⟨after, rfl, _, weighed⟩ := follows
      have answered := (weighed.healthy healthy).more origin []
      rwa [List.append_nil] at answered
    refine Triple.bind asked fun state => ?_
    cases state with
    | healthy => exact Triple.pure fun _ facts => ⟨facts.1.held, facts.2 rfl, .inl rfl⟩
    | incompatible =>
      exact (looped _).imp (fun _ facts => facts.1) (fun _ _ known => known) fun _ free => free
    | unreachable =>
      exact (looped _).imp (fun _ facts => facts.1) (fun _ _ known => known) fun _ free => free

/-- At most one daemon is launched in a history whose launches came after no other. -/
theorem launches_once {history : History} (calls : Calls Permitted history) :
    (launches history).length ≤ 1 := by
  induction history using List.reverseRecOn with
  | nil => exact Nat.zero_le 1
  | append_singleton history entry inductionHypothesis =>
    have earlier : (launches history).length ≤ 1 := by
      apply inductionHypothesis
      intro before call aborted after same
      apply calls before call aborted (after ++ [entry])
      rw [same, List.append_assoc, List.cons_append]
    rw [launches, List.filterMap_append, List.length_append, ← launches]
    cases launch : Entry.launch? entry with
    | none => rwa [List.filterMap_cons_none launch]
    | some tokens =>
      rw [List.filterMap_cons_some launch]
      have none : launches history = [] := by
        cases entry with
        | returned call outcome => cases launch
        | called call aborted =>
          cases call with
          | launch token handoffToken =>
            exact ((calls history _ aborted [] rfl).launch token handoffToken rfl).1
          | _ => cases launch
      rw [none]
      exact Nat.le_refl 1

/-- Whatever the storage, the daemons and the system answer, the client launches at most one daemon
and makes only calls that are permitted, and when it ends it has no lock and a reason for the
descriptor that it returns. -/
theorem launch_safe (host : Host) (rounds : Nat) (known : Option DaemonDescriptor)
    (events : List (Event Call Call.Reply Failure)) :
    (launches (run (start (ensureDaemon host rounds known)) events).history).length ≤ 1 ∧
      (∀ before call aborted after,
        (run (start (ensureDaemon host rounds known)) events).history =
          before ++ .called call aborted :: after →
        Permitted aborted before call) ∧
      ∀ outcome, (run (start (ensureDaemon host rounds known)) events).stage = .ended outcome →
        Ends known (run (start (ensureDaemon host rounds known)) events).history outcome := by
  have meets (aborted : Bool) : Meets Permitted (fun _ => Ends known)
      (ensureDaemon host rounds known) aborted [] := by
    refine (ensureDaemon_triple host rounds known aborted [] rfl).imp ?_
    intro _ history outcome concluded
    cases outcome with
    | ok descriptor =>
      refine ⟨concluded.1, ?_⟩
      rintro _ ⟨⟩
      exact concluded.2
    | error failure => exact ⟨concluded, fun _ equal => by cases equal⟩
  have sound := run_meets meets events
  exact ⟨launches_once sound.calls, sound.calls, sound.ended⟩

/-- The descriptor of a daemon that is healthy, as the storage has it. -/
def sampleDescriptor : Js :=
  .obj [("pid", .num (.integer 7)), ("processIdentity", .str (js "i")),
    ("protocolVersion", .num (.integer 8)), ("token", .str (js "t")),
    ("endpoint", .str (js "http://127.0.0.1:4096"))]

/-- The answers to a client that finds this descriptor in the storage. -/
def sampleReply (stored : Option Js) : (call : Call) → Except Failure call.Reply
  | .now => .ok (0 : Int)
  | .readDescriptor => .ok stored
  | .health _ _ => .ok (.obj [("ok", .bool true), ("result", sampleDescriptor)])
  | .descriptorOwnerStatus => .ok OwnerStatus.dead
  | .descriptorOwnerAlive => .ok false
  | .acquireStartLock => .ok (some ⟨js "l", js "h"⟩)
  | .randomUUID => .ok (js "t")
  | .launch _ _ => .ok true
  | .exitCode => .ok (none : Option Int)
  | .stderr => .ok (js "")
  | .releaseStartLock _ | .stderrDone | .sleep => .ok ()

/-- A daemon is launched with the handoff token of the lock. -/
example :
    launches (run (start (ensureDaemon ⟨fun _ _ => []⟩ 4 none))
      ((List.replicate 8 [.resume, .answer (sampleReply none)]).flatten ++
        (List.replicate 8
          [.resume, .answer (sampleReply (some sampleDescriptor))]).flatten)).history =
      [(js "t", js "h")] := by
  decide

end OpencodePty.DaemonLaunches
