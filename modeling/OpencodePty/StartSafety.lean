import OpencodePty.StartProtocol

/-!
# A start that is written ahead

Where no write of the start overtakes a call of `writeSession` whose copy lacks what its own has, the
record and the authority are on disk ahead of the start frame and of the worker, whatever fails and
whoever dies, and a receipt tells that there is no child and never will be.

A wait that settles while the session is being started shows what happens otherwise. Its copy says
that no start was attempted, and lands after the start frame was sent.
-/

namespace OpencodePty.StartProtocol

open JsValues OverlappingWrites TextEncodings Transitions

/-! ## The stages of the start -/

/-- No start frame goes out before these stages are left. -/
def Daemon.unstarted : Daemon → Bool
  | .creating | .preparing | .authorizing | .launching | .identifying | .bootstrapping
  | .referencing | .attempting | .starting => true
  | _ => false

/-- The worker is not launched before these stages are left. -/
def Daemon.unlaunched : Daemon → Bool
  | .creating | .preparing | .authorizing | .launching => true
  | _ => false

/-- The stages in which the mark or the authority of the record changes. -/
def Daemon.marking : Daemon → Bool
  | .preparing | .bootstrapping | .referencing | .attempting => true
  | _ => false

/-- The stages about which something is known of the record. -/
def Daemon.armed : Daemon → Bool
  | .authorizing | .launching | .attempting | .starting => true
  | _ => false

/-- The stage whose write leads to a stage, where its record must be on disk. -/
def Daemon.writtenBefore : Daemon → Option Daemon
  | .launching => some .authorizing
  | .starting => some .attempting
  | _ => none

/-- A start frame is sent only after the worker was launched. -/
theorem Daemon.unlaunched_of_late {daemon : Daemon} (late : daemon.unstarted = false) :
    daemon.unlaunched = false := by
  cases daemon with
  | creating | preparing | authorizing | launching => cases late
  | _ => rfl

/-- Nothing has to be known of the record once no start frame is sent any more. -/
theorem Daemon.armed_of_late {daemon : Daemon} (late : daemon.unstarted = false) :
    daemon.armed = false := by
  cases daemon with
  | authorizing | launching | attempting | starting => cases late
  | _ => rfl

/-- The record has its last mark before a start frame is sent. -/
theorem Daemon.marking_of_late {daemon : Daemon} (late : daemon.unstarted = false) :
    daemon.marking = false := by
  cases daemon with
  | preparing | bootstrapping | referencing | attempting => cases late
  | _ => rfl

/-- A stage after the launch is none before it. -/
theorem Daemon.never_early {daemon : Daemon} (late : daemon.unlaunched = false) {fact : Prop}
    (early : daemon.unlaunched = true) : fact := by
  rw [late] at early
  cases early

/-- Both stages that need their record on disk are armed. -/
theorem Daemon.armed_of_written {daemon stage : Daemon}
    (needs : daemon.writtenBefore = some stage) : daemon.armed = true := by
  cases daemon with
  | launching | starting => rfl
  | _ => cases needs

/-! ## What a step can do -/

/-- What the steps of `spawn` between its writes do. -/
inductive Spawned (fingerprint : JsString → JsString) (launched : Launch) (system : System) :
    System → Prop where
  | idle : Spawned fingerprint launched system system
  /-- The authority is to be written. -/
  | prepared (stage : system.daemon = .preparing) :
    Spawned fingerprint launched system
      ({ system with
        record := { system.record with
          workerPrestart := some (launched.authority fingerprint)
          workerStartAttempted := some false } }.goto .authorizing)
  | launches (stage : system.daemon = .launching) {daemon : Daemon}
    (late : daemon.unlaunched = false) (calm : daemon.armed = false) :
    Spawned fingerprint launched system ({ system with worker := .booting }.goto daemon)
  /-- The worker is ready, or `prepare` fails for it. -/
  | referred (stage : system.daemon = .bootstrapping) {daemon : Daemon} {record : SessionRecord}
    {closed : Bool} (late : daemon.unlaunched = false) (calm : daemon.armed = false) :
    Spawned fingerprint launched system ({ system with record, closed }.goto daemon)
  /-- The start frame is sent. -/
  | sends (stage : system.daemon = .starting) {daemon : Daemon} {frame : Frame}
    (late : daemon.unstarted = false) :
    Spawned fingerprint launched system
      ({ system.send frame with startSent := true }.goto daemon)
  /-- Other frames are sent, the status changes, or the record is deleted. -/
  | moves (stage : system.daemon.writes = false) {daemon : Daemon} {status : Status}
    {listed closed : Bool} {durable : Option SessionRecord} {frames : List Frame}
    (late : daemon.unlaunched = false) (calm : daemon.armed = false)
    (early : daemon.unstarted = true → system.daemon.unstarted = true)
    (kept : ∀ record, durable = some record → system.durable = some record)
    (plain : Frame.start ∉ frames) :
    Spawned fingerprint launched system
      ({ system with
        listed, closed, durable
        record := { system.record with status }
        pipe := system.pipe ++ frames }.goto daemon)

/-- What the start does when a call is over. It goes on where the call was its own. -/
inductive Resumed (call : Call SessionRecord) (succeeds : Bool) (system : System) :
    System → Prop where
  | idle : Resumed call succeeds system system
  /-- The authority is on disk. -/
  | launches (stage : system.daemon = .authorizing) (awaited : call.awaited = true)
    (done : succeeds = true) : Resumed call succeeds system (system.goto .launching)
  /-- The attempt is to be written. -/
  | attempts (stage : system.daemon = .referencing) (awaited : call.awaited = true) :
    Resumed call succeeds system
      ({ system with record := { system.record with workerStartAttempted := some true } }.goto
        .attempting)
  /-- The attempt is on disk. -/
  | starts (stage : system.daemon = .attempting) (awaited : call.awaited = true)
    (done : succeeds = true) : Resumed call succeeds system (system.goto .starting)
  | gives (stage : system.daemon = .attempting) (awaited : call.awaited = true) :
    Resumed call succeeds system
      ({ system with record := { system.record with workerStartAttempted := some false } }.goto
        .rollingBack)
  | moves (awaited : call.awaited = true) {daemon : Daemon} {listed : Bool}
    (calm : daemon.armed = false)
    (early : daemon.unstarted = true → system.daemon.unstarted = true)
    (unlaunched : daemon.unlaunched = true → system.daemon.unlaunched = true) :
    Resumed call succeeds system ({ system with listed }.goto daemon)

/-- What the steps of the worker and of its command do. -/
inductive Worked (launched : Launch) (system : System) : System → Prop where
  | idle : Worked launched system system
  | ends {pipe : List Frame} (fewer : ∀ frame ∈ pipe, frame ∈ system.pipe)
    (present : system.worker ≠ .absent) :
    Worked launched system { system with pipe, worker := .ended }
  /-- The worker has read a frame, and goes on. -/
  | advances {pipe : List Frame} {worker : Worker} (fewer : ∀ frame ∈ pipe, frame ∈ system.pipe)
    (before : system.worker = .booting ∧ worker = .controlling ∨
      system.worker = .controlling ∧ worker = .spawning ∧ Frame.start ∈ system.pipe) :
    Worked launched system { system with pipe, worker }
  /-- The worker leaves its receipt. -/
  | leaves {pipe : List Frame} (fewer : ∀ frame ∈ pipe, frame ∈ system.pipe)
    (before : system.worker = .controlling) :
    Worked launched system
      { system with
        pipe
        worker := .ended
        receipt := some launched.receipt
        receiptWritten := true }
  | creates (before : system.worker = .spawning) :
    Worked launched system { system with worker := .running, childCreated := true }
  /-- The command writes a receipt, or removes one. -/
  | tampers {receipt : Option PrestartNoChildReceipt} (created : system.childCreated = true) :
    Worked launched system { system with receipt }

/-- What a step does. -/
inductive Stepped (fingerprint : JsString → JsString) (launched : Launch) (system : System)
    (action : Action) : System → Prop where
  | spawns {after : System} (spawned : Spawned fingerprint launched system after) :
    Stepped fingerprint launched system action after
  | works {after : System} (worked : Worked launched system after) :
    Stepped fingerprint launched system action after
  | enters {index : Nat} (now : action = .enter index) :
    Stepped fingerprint launched system action
      { system with writes := system.writes.enter index }
  /-- The first write in the queue is over, and has landed or not. -/
  | served {call : Call SessionRecord} {rest : List (Call SessionRecord)} {succeeds : Bool}
    {durable : Option SessionRecord} {after : System}
    (queue : system.writes.queue = call :: rest)
    (landed : durable = some call.copy ∨ succeeds = false ∧ durable = system.durable)
    (resumed : Resumed call succeeds { system with durable, writes := system.writes.next } after) :
    Stepped fingerprint launched system action after
  | missed {call : Call SessionRecord} {index : Nat} {after : System}
    (there : system.writes.calls[index]? = some call)
    (resumed : Resumed call false { system with writes := system.writes.miss index } after) :
    Stepped fingerprint launched system action after
  /-- A request takes its copy of the record. Its status may change once the worker was launched. -/
  | requests {status : Status}
    (kept : system.daemon.unlaunched = true → status = system.record.status) :
    Stepped fingerprint launched system action
      { system with
        record := { system.record with status }
        writes := system.writes.make { system.record with status } false }
  | crashes {durable : Option SessionRecord}
    (landed : durable = system.durable ∨
      ∃ call ∈ system.writes.all, durable = some call.copy) :
    Stepped fingerprint launched system action
      { system with daemon := .dead, durable, closed := true, writes := .idle }
  | loads {record : SessionRecord} (stage : system.daemon = .dead)
    (found : system.durable = some record) :
    Stepped fingerprint launched system action
      { system with daemon := .restarted, record, listed := true }
  /-- The session is deleted on its receipt, or on other evidence. -/
  | deletes {deletedOnReceipt : Bool}
    (evidence : deletedOnReceipt = true ∧ system.receiptVerified fingerprint = true ∨
      deletedOnReceipt = system.deletedOnReceipt ∧
        (system.record.status ≠ .starting ∨ system.record.workerStartAttempted = some true)) :
    Stepped fingerprint launched system action { system.delete with deletedOnReceipt }

section Steps

variable {fingerprint : JsString → JsString} {launched : Launch} {system after : System}

/-- A daemon that writes nothing leaves the writes. -/
@[simp]
theorem goto_idle {daemon : Daemon} (still : daemon.writes = false) :
    system.goto daemon = { system with daemon } := by
  simp [System.goto, still]

/-- The start comes to a stage at which no start frame is sent any more. -/
theorem Spawned.goes (stage : system.daemon.writes = false) {daemon : Daemon} {status : Status}
    {listed closed : Bool} {durable : Option SessionRecord} (late : daemon.unstarted = false)
    (kept : ∀ record, durable = some record → system.durable = some record) :
    Spawned fingerprint launched system
      ({ system with
        listed, closed, durable
        record := { system.record with status } }.goto daemon) := by
  have moved := @Spawned.moves fingerprint launched system stage daemon status listed closed durable
    [] (Daemon.unlaunched_of_late late) (Daemon.armed_of_late late)
    (fun early => by rw [late] at early; cases early) kept (List.not_mem_nil)
  rwa [List.append_nil] at moved

/-- A step of a spawn is one of those of the daemon. -/
theorem spawn_spawned (action : Action) :
    Spawned fingerprint launched system (system.spawn fingerprint launched action) := by
  unfold System.spawn
  split
  · split
    next stage =>
      have still : system.daemon.writes = false := by rw [stage]; rfl
      split_ifs
      · exact .prepared stage
      · exact .goes still rfl (fun _ => id)
    · exact .idle
  · split
    next stage =>
      have still : system.daemon.writes = false := by rw [stage]; rfl
      split_ifs
      · exact .launches stage rfl rfl
      · exact .launches stage rfl rfl
      · exact .goes still rfl (fun _ => id)
    · exact .idle
  · split
    next stage =>
      have still : system.daemon.writes = false := by rw [stage]; rfl
      split_ifs
      · exact .moves still rfl rfl (fun _ => by rw [stage]; rfl) (fun _ => id) (by decide)
      · exact .goes still rfl (fun _ => id)
    · exact .idle
  · split
    next stage =>
      dsimp only
      split_ifs <;> exact .referred stage rfl rfl
    · exact .idle
  next succeeds =>
    split
    next stage => cases succeeds <;> exact .sends stage rfl
    · exact .idle
  · split
    next stage =>
      have still : system.daemon.writes = false := by rw [stage]; rfl
      split_ifs
      · exact .goes still rfl (fun _ => id)
      · exact .goes still rfl (fun _ => id)
    · exact .idle
  · split
    next stage =>
      have still : system.daemon.writes = false := by rw [stage]; rfl
      split_ifs
      · exact .moves still rfl rfl (fun other => nomatch other) (fun _ => id) (by decide)
      · exact .goes still rfl (fun _ => id)
    · exact .idle
  · split
    next stage => exact .goes (by rw [stage]; rfl) rfl (fun _ => id)
    · exact .idle
  · split
    next stage =>
      have still : system.daemon.writes = false := by rw [stage]; rfl
      split_ifs
      · exact .goes still rfl (fun _ absent => nomatch absent)
      · exact .goes still rfl (fun _ => id)
    · exact .idle
  · exact .idle

/-- The start leaves its stage when its write is over, and does nothing else. -/
theorem Resumed.goes {call : Call SessionRecord} {succeeds : Bool}
    (awaited : call.awaited = true) {daemon : Daemon} (late : daemon.unstarted = false) :
    Resumed call succeeds system (system.goto daemon) :=
  @Resumed.moves call succeeds system awaited daemon system.listed (Daemon.armed_of_late late)
    (fun early => by rw [late] at early; cases early)
    (Daemon.never_early (Daemon.unlaunched_of_late late))

/-- The code behind a write is one of those of the daemon. -/
theorem resume_resumed (call : Call SessionRecord) (succeeds : Bool) :
    Resumed call succeeds system (system.resume call succeeds) := by
  unfold System.resume
  split_ifs with awaited done
  · unfold System.afterWrite
    split
    next stage =>
      exact @Resumed.moves call succeeds system awaited .preparing system.listed rfl
        (fun _ => by rw [stage]; rfl) (fun _ => by rw [stage]; rfl)
    next stage => exact .launches stage awaited done
    next stage => exact .attempts stage awaited
    next stage => exact .starts stage awaited done
    · exact .goes awaited rfl
    next noWorkerSpawned _ => cases noWorkerSpawned <;> exact .goes awaited rfl
    · exact .idle
  · unfold System.afterFailedWrite
    split
    · exact .moves awaited rfl (fun other => nomatch other) (fun other => nomatch other)
    · exact .goes awaited rfl
    · exact .goes awaited rfl
    · exact .goes awaited rfl
    next stage => exact .gives stage awaited
    · exact .goes awaited rfl
    · exact .idle
  · exact .idle

/-- What is left of the pipe, and the frame that was read, were in it. -/
theorem readFrame_rest {frame : Option Frame} {rest : List Frame}
    (read : system.readFrame = some (frame, rest)) :
    (∀ other ∈ rest, other ∈ system.pipe) ∧
      (∀ known, frame = some known → known ∈ system.pipe) := by
  unfold System.readFrame at read
  split at read
  next first remaining whole =>
    cases read
    rw [whole]
    exact ⟨fun _ member => .tail _ member, fun known same => by cases same; exact .head _⟩
  · split_ifs at read
    cases read
    exact ⟨fun _ member => (nomatch member), fun _ same => nomatch same⟩

/-- A worker that boots takes a step of its own. -/
theorem boot_worked (succeeds : Bool) : Worked launched system (system.boot succeeds) := by
  unfold System.boot
  split
  next rest stage read =>
    have fewer := (readFrame_rest read).1
    cases succeeds with
    | false => exact .ends fewer (by rw [stage]; decide)
    | true => exact .advances fewer (.inl ⟨stage, rfl⟩)
  next rest stage read => exact .ends (readFrame_rest read).1 (by rw [stage]; decide)
  · exact .idle

/-- Only a start frame leads to a child; anything else ends the worker with its receipt. -/
theorem control_worked (stores : Bool) :
    Worked launched system (system.control launched stores) := by
  unfold System.control
  split
  next rest stage read =>
    obtain ⟨fewer, first⟩ := readFrame_rest read
    exact .advances fewer (.inr ⟨stage, rfl, first .start rfl⟩)
  next rest stage read =>
    have fewer := (readFrame_rest read).1
    split_ifs
    · exact .leaves fewer stage
    · exact .ends fewer (by rw [stage]; decide)
  · exact .idle

/-- A worker that starts its child takes a step of its own. -/
theorem spawnChild_worked (succeeds : Bool) :
    Worked launched system (system.spawnChild succeeds) := by
  unfold System.spawnChild
  split
  next stage =>
    split_ifs
    · exact .creates stage
    · exact .ends (fun _ member => member) (by rw [stage]; decide)
  · exact .idle

/-- The end of a write is a step. -/
theorem written_stepped {action : Action} (succeeds lands : Bool) :
    Stepped fingerprint launched system action (system.written succeeds lands) := by
  unfold System.written
  split
  next call rest queue =>
    rw [System.land, queue]
    cases succeeds with
    | true => exact .served queue (.inl rfl) (resume_resumed call true)
    | false =>
      cases lands with
      | true => exact .served queue (.inl rfl) (resume_resumed call false)
      | false => exact .served queue (.inr ⟨rfl, rfl⟩) (resume_resumed call false)
  · exact .spawns .idle

/-- A request for the record is a step. -/
theorem request_stepped {action : Action} (status : Option Status) :
    Stepped fingerprint launched system action (system.request status) := by
  unfold System.request
  cases alive : system.daemon.alive with
  | false => exact .spawns .idle
  | true =>
    cases serves : system.daemon.serves with
    | false =>
      exact @Stepped.requests fingerprint launched system action system.record.status fun _ => rfl
    | true =>
      refine .requests (fun early => ?_)
      cases stage : system.daemon with
      | creating | preparing | authorizing | launching =>
        rw [stage] at serves
        cases serves
      | _ =>
        rw [stage] at early
        cases early

/-- A cleanup on a receipt is a step. -/
theorem deleteOnReceipt_stepped {action : Action} (deletes : Bool) :
    Stepped fingerprint launched system action (system.deleteOnReceipt fingerprint deletes) := by
  unfold System.deleteOnReceipt
  split_ifs with verified
  · simp only [Bool.and_eq_true] at verified
    exact .deletes (.inl ⟨rfl, verified.1.2⟩)
  · exact .spawns .idle

/-- The death of the daemon is a step. -/
theorem crash_stepped {action : Action} (lands : Bool) :
    Stepped fingerprint launched system action
      { system.land lands with daemon := .dead, closed := true, writes := .idle } := by
  unfold System.land
  split
  next call rest queue =>
    cases lands with
    | true => exact .crashes (.inr ⟨call, by simp [Writes.all, queue], rfl⟩)
    | false => exact .crashes (.inl rfl)
  · exact .crashes (.inl rfl)

/-- Every step is one of these. -/
theorem step_stepped (action : Action) :
    Stepped fingerprint launched system action (system.step fingerprint launched action) := by
  cases action with
  | enter index => exact .enters rfl
  | miss index =>
    simp only [System.step, System.miss]
    split
    next call there => exact .missed there (resume_resumed call false)
    · exact .spawns .idle
  | written succeeds lands => exact written_stepped succeeds lands
  | request status => exact request_stepped status
  | prepare succeeds => exact .spawns (spawn_spawned (.prepare succeeds))
  | launch spawned captured => exact .spawns (spawn_spawned (.launch spawned captured))
  | bootstrap succeeds => exact .spawns (spawn_spawned (.bootstrap succeeds))
  | ready verified described => exact .spawns (spawn_spawned (.ready verified described))
  | start succeeds => exact .spawns (spawn_spawned (.start succeeds))
  | started succeeds => exact .spawns (spawn_spawned (.started succeeds))
  | rollback succeeds => exact .spawns (spawn_spawned (.rollback succeeds))
  | settle status => exact .spawns (spawn_spawned (.settle status))
  | remove succeeds => exact .spawns (spawn_spawned (.remove succeeds))
  | crash lands => exact crash_stepped lands
  | restart =>
    simp only [System.step]
    split
    next stage found => exact .loads stage found
    · exact .spawns .idle
  | reconcile deletes =>
    simp only [System.step]
    split
    · split_ifs
      · exact .spawns .idle
      · exact deleteOnReceipt_stepped deletes
    · exact .spawns .idle
  | cleanup deletes =>
    simp only [System.step]
    split_ifs
    · exact deleteOnReceipt_stepped deletes
    · exact .spawns .idle
  | discard =>
    simp only [System.step]
    split_ifs with evidence
    · exact .deletes (.inr ⟨rfl, evidence.2.2⟩)
    · exact .spawns .idle
  | boot succeeds => exact .works (boot_worked succeeds)
  | control stores => exact .works (control_worked stores)
  | spawnChild succeeds => exact .works (spawnChild_worked succeeds)
  | die =>
    simp only [System.step]
    split_ifs with absent
    · exact .works .idle
    · exact .works (.ends (fun _ member => member) absent)
  | tamper receipt =>
    simp only [System.step]
    split_ifs with created
    · exact .works (.tampers created)
    · exact .works .idle

end Steps

/-! ## The worker and its receipt -/

/-- The worker has not come to create a child. -/
def Worker.unspawned : Worker → Bool
  | .absent | .booting | .controlling | .spawning => true
  | _ => false

/-- The worker has ended without a child. -/
structure System.Barren (system : System) : Prop where
  ended : system.worker = .ended
  childless : system.childCreated = false

/-- A child comes of a start frame only, and a receipt of a worker without a child. -/
structure Childless (system : System) : Prop where
  early : system.daemon.unlaunched = true →
    system.worker = .absent ∧ system.record.status = .starting
  absent : system.worker = .absent → system.receipt = none
  fresh : system.worker.unspawned = true → system.childCreated = false
  sent : Frame.start ∈ system.pipe ∨ system.worker = .spawning ∨ system.childCreated = true →
    system.startSent = true
  written : system.receiptWritten = true → system.Barren
  receipt : system.receipt ≠ none → system.receiptWritten = true ∨ system.childCreated = true

section Childless

variable {fingerprint : JsString → JsString} {launched : Launch} {system after : System}
  {action : Action}

/-- A step of the daemon that leaves the worker alone. -/
theorem Childless.daemon (childless : Childless system)
    (early : after.daemon.unlaunched = true →
      system.daemon.unlaunched = true ∧ after.record.status = system.record.status)
    (worker : after.worker = system.worker) (receipt : after.receipt = system.receipt)
    (child : after.childCreated = system.childCreated)
    (written : after.receiptWritten = system.receiptWritten)
    (sent : system.startSent = true → after.startSent = true)
    (pipe : Frame.start ∈ after.pipe → Frame.start ∈ system.pipe ∨ after.startSent = true) :
    Childless after := by
  constructor
  · intro now
    obtain ⟨before, same⟩ := early now
    rw [worker, same]
    exact childless.early before
  · rw [worker, receipt]
    exact childless.absent
  · rw [worker, child]
    exact childless.fresh
  · rw [worker, child]
    rintro (waiting | others)
    · rcases pipe waiting with known | now
      · exact sent (childless.sent (.inl known))
      · exact now
    · exact sent (childless.sent (.inr others))
  · intro now
    have barren := childless.written (written ▸ now)
    exact ⟨worker.trans barren.ended, child.trans barren.childless⟩
  · rw [receipt, written, child]
    exact childless.receipt

/-- A step after which the worker was launched, or which changes neither stage nor status. -/
theorem Childless.same (childless : Childless system) {daemon : Daemon} {record : SessionRecord}
    {listed closed deletedOnReceipt : Bool} {durable : Option SessionRecord}
    {writes : Writes SessionRecord}
    (early : daemon.unlaunched = true →
      system.daemon.unlaunched = true ∧ record.status = system.record.status) :
    Childless
      { system with daemon, record, listed, durable, closed, writes, deletedOnReceipt } :=
  childless.daemon early rfl rfl rfl rfl id .inl

/-- The worker is launched, and has written nothing. -/
theorem Childless.launch (childless : Childless system) (stage : system.daemon = .launching)
    {daemon : Daemon} (late : daemon.unlaunched = false) :
    Childless ({ system with worker := .booting }.goto daemon) := by
  have absent := (childless.early (by rw [stage]; rfl)).1
  constructor
  · exact Daemon.never_early late
  · intro other
    cases other
  · intro _
    exact childless.fresh (by rw [absent]; rfl)
  · rintro (waiting | spawning | created)
    · exact childless.sent (.inl waiting)
    · cases spawning
    · exact childless.sent (.inr (.inr created))
  · intro written
    have ended := (childless.written written).ended
    rw [absent] at ended
    cases ended
  · exact childless.receipt

/-- The daemon starts no child of a worker that has none to come. -/
theorem Childless.spawn (childless : Childless system)
    (spawned : Spawned fingerprint launched system after) : Childless after := by
  cases spawned with
  | idle => exact childless
  | prepared stage => exact childless.same (fun _ => ⟨by rw [stage]; rfl, rfl⟩)
  | launches stage late calm => exact childless.launch stage late
  | referred stage late calm =>
    exact childless.same (Daemon.never_early late)
  | sends stage late =>
    exact childless.daemon (Daemon.never_early (Daemon.unlaunched_of_late late)) rfl rfl rfl rfl
      (fun _ => rfl) (fun _ => .inr rfl)
  | moves stage late calm early kept plain =>
    refine childless.daemon (Daemon.never_early late) rfl rfl rfl rfl id ?_
    intro waiting
    rcases List.mem_append.mp waiting with known | new
    · exact .inl known
    · exact absurd new plain

/-- The worker ends without a receipt. -/
theorem Childless.end (childless : Childless system) {pipe : List Frame}
    (fewer : ∀ frame ∈ pipe, frame ∈ system.pipe) (present : system.worker ≠ .absent) :
    Childless { system with pipe, worker := .ended } where
  early now := absurd (childless.early now).1 present
  absent other := nomatch other
  fresh other := nomatch other
  sent := by
    rintro (waiting | spawning | created)
    · exact childless.sent (.inl (fewer _ waiting))
    · cases spawning
    · exact childless.sent (.inr (.inr created))
  written now := ⟨rfl, (childless.written now).childless⟩
  receipt := childless.receipt

/-- The worker goes on, and has created no child yet. -/
theorem Childless.advance (childless : Childless system) {pipe : List Frame} {worker : Worker}
    (fewer : ∀ frame ∈ pipe, frame ∈ system.pipe)
    (before : system.worker = .booting ∧ worker = .controlling ∨
      system.worker = .controlling ∧ worker = .spawning ∧ Frame.start ∈ system.pipe) :
    Childless { system with pipe, worker } := by
  have present : system.worker ≠ .absent := by
    rcases before with ⟨stage, _⟩ | ⟨stage, _⟩ <;> rw [stage] <;> decide
  have unspawned : system.worker.unspawned = true := by
    rcases before with ⟨stage, _⟩ | ⟨stage, _⟩ <;> rw [stage] <;> rfl
  constructor
  · intro now
    exact absurd (childless.early now).1 present
  · rintro rfl
    rcases before with ⟨_, other⟩ | ⟨_, other, _⟩ <;> cases other
  · intro _
    exact childless.fresh unspawned
  · rintro (waiting | spawns | created)
    · exact childless.sent (.inl (fewer _ waiting))
    · rcases before with ⟨_, other⟩ | ⟨_, _, waiting⟩
      · rw [show worker = .spawning from spawns] at other
        cases other
      · exact childless.sent (.inl waiting)
    · exact childless.sent (.inr (.inr created))
  · intro written
    rw [(childless.written written).ended] at unspawned
    cases unspawned
  · exact childless.receipt

/-- Nor does the worker. -/
theorem Childless.work (childless : Childless system) (worked : Worked launched system after) :
    Childless after := by
  cases worked with
  | idle => exact childless
  | ends fewer present => exact childless.end fewer present
  | advances fewer before => exact childless.advance fewer before
  | leaves fewer before =>
    have ended := childless.end fewer (by rw [before]; decide)
    have barren : system.childCreated = false := childless.fresh (by rw [before]; rfl)
    exact ⟨ended.early, fun other => (nomatch other), ended.fresh, ended.sent,
      fun _ => ⟨rfl, barren⟩, fun _ => .inl rfl⟩
  | creates before =>
    have sent := childless.sent (.inr (.inl before))
    refine ⟨fun now => ?_, fun other => (nomatch other), fun other => (nomatch other),
      fun _ => sent, fun written => ?_, fun _ => .inr rfl⟩
    · have absent := (childless.early now).1
      rw [before] at absent
      cases absent
    · have ended := (childless.written written).ended
      rw [before] at ended
      cases ended
  | tampers created =>
    refine ⟨childless.early, fun absent => ?_, childless.fresh, childless.sent,
      fun now => ⟨(childless.written now).ended, (childless.written now).childless⟩,
      fun _ => .inr created⟩
    have none := childless.fresh (by rw [show system.worker = .absent from absent]; rfl)
    rw [created] at none
    cases none

/-- The start goes on when its call is over. -/
theorem Childless.resume (childless : Childless system) {call : Call SessionRecord}
    {succeeds : Bool} (resumed : Resumed call succeeds system after) : Childless after := by
  cases resumed with
  | idle => exact childless
  | launches stage awaited done => exact childless.same fun _ => ⟨by rw [stage]; rfl, rfl⟩
  | attempts stage _ | starts stage _ _ | gives stage _ =>
    exact childless.same fun other => nomatch other
  | moves awaited calm early unlaunched => exact childless.same fun now => ⟨unlaunched now, rfl⟩

/-- A worker that has no child to come gets none in any step. -/
theorem Stepped.childless (stepped : Stepped fingerprint launched system action after)
    (childless : Childless system) : Childless after := by
  cases stepped with
  | spawns spawned => exact childless.spawn spawned
  | works worked => exact childless.work worked
  | enters now => exact childless.same fun early => ⟨early, rfl⟩
  | served queue landed resumed =>
    exact Childless.resume (childless.same fun early => ⟨early, rfl⟩) resumed
  | missed there resumed =>
    exact Childless.resume (childless.same fun early => ⟨early, rfl⟩) resumed
  | requests kept => exact childless.same fun early => ⟨early, kept early⟩
  | crashes landed => exact childless.same fun other => nomatch other
  | loads stage found => exact childless.same fun other => nomatch other
  | deletes evidence => exact childless.same fun early => ⟨early, rfl⟩

/-- The start goes on without a frame, and touches neither the worker nor the disk. -/
theorem Resumed.kept {call : Call SessionRecord} {succeeds : Bool}
    (resumed : Resumed call succeeds system after) :
    after.worker = system.worker ∧ after.childCreated = system.childCreated ∧
      after.startSent = system.startSent ∧ after.deletedOnReceipt = system.deletedOnReceipt ∧
      after.durable = system.durable := by
  cases resumed <;> exact ⟨rfl, rfl, rfl, rfl, rfl⟩

/-- The daemon touches the worker at the launch only. -/
theorem Stepped.worker (stepped : Stepped fingerprint launched system action after) :
    system.daemon = .launching ∨ Worked launched system after ∨
      after.worker = system.worker ∧ after.childCreated = system.childCreated := by
  cases stepped with
  | spawns spawned =>
    cases spawned with
    | launches stage late calm => exact .inl stage
    | idle | prepared _ | referred _ _ _ | sends _ _ | moves _ _ _ _ _ _ =>
      exact .inr (.inr ⟨rfl, rfl⟩)
  | works worked => exact .inr (.inl worked)
  | served _ _ resumed | missed _ resumed =>
    obtain ⟨worker, child, _⟩ := resumed.kept
    exact .inr (.inr ⟨worker, child⟩)
  | enters _ | requests _ | crashes _ | loads _ _ | deletes _ => exact .inr (.inr ⟨rfl, rfl⟩)

/-- The worker is launched at the launching stage only. -/
theorem Stepped.absent (stepped : Stepped fingerprint launched system action after)
    (other : system.daemon ≠ .launching) (absent : system.worker = .absent) :
    after.worker = .absent := by
  rcases stepped.worker with stage | worked | ⟨same, _⟩
  · exact absurd stage other
  · cases worked with
    | idle | tampers _ => exact absent
    | ends fewer present => exact absurd absent present
    | advances fewer before =>
      rcases before with ⟨stage, _⟩ | ⟨stage, _⟩ <;> cases absent.symm.trans stage
    | leaves fewer before => cases absent.symm.trans before
    | creates before => cases absent.symm.trans before
  · exact same.trans absent

/-- A worker that has ended without a child never creates one. -/
theorem Stepped.barren (stepped : Stepped fingerprint launched system action after)
    (childless : Childless system) (barren : system.Barren) : after.Barren := by
  rcases stepped.worker with stage | worked | ⟨same, child⟩
  · have absent := (childless.early (by rw [stage]; rfl)).1
    cases absent.symm.trans barren.ended
  · cases worked with
    | idle | tampers _ => exact ⟨barren.ended, barren.childless⟩
    | ends fewer present => exact ⟨rfl, barren.childless⟩
    | advances fewer before =>
      rcases before with ⟨stage, _⟩ | ⟨stage, _⟩ <;> cases barren.ended.symm.trans stage
    | leaves fewer before => exact ⟨rfl, barren.childless⟩
    | creates before => cases barren.ended.symm.trans before
  · exact ⟨same.trans barren.ended, child.trans barren.childless⟩

/-- With no start frame sent, a receipt is the worker's own. -/
theorem Childless.barren (childless : Childless system) (unsent : system.startSent = false)
    (left : system.receipt ≠ none) : system.Barren := by
  rcases childless.receipt left with written | created
  · exact childless.written written
  · have sent := childless.sent (.inr (.inr created))
    rw [unsent] at sent
    cases sent

/-- At first there is no child to come. -/
theorem opened_childless : Childless System.opened :=
  ⟨fun _ => ⟨rfl, rfl⟩, fun _ => rfl, fun _ => rfl, by simp [System.opened],
    fun written => (nomatch written), fun left => absurd rfl left⟩

/-- Whatever follows, a worker that has ended without a child has none. -/
theorem run_barren (childless : Childless system) (barren : system.Barren)
    (actions : List Action) : (run (System.step fingerprint launched) system actions).Barren :=
  @run_preserves_under _ _ (System.step fingerprint launched) Childless System.Barren
    (fun _ action childless => (step_stepped action).childless childless)
    (fun _ action childless barren => (step_stepped action).barren childless barren) system actions
    childless barren

end Childless

/-! ## What is held, stored and written -/

/-- A fact of the marks of the record, of the one on disk, and of all that are on their way there. -/
structure Everywhere (fact : Marks → Prop) (system : System) : Prop where
  held : fact system.record.marks
  stored : ∀ record, system.durable = some record → fact record.marks
  written : ∀ call ∈ system.writes.all, fact call.copy.marks

/-- The start's own call has the marks of the record, and carries them ahead of the others. -/
structure Ordered (system : System) : Prop where
  quiet : system.daemon.writes = false → system.writes.Quiet
  own : ∀ call ∈ system.writes.all, call.awaited = true → call.copy.marks = system.record.marks
  led : system.writes.Led SessionRecord.carried

section Everywhere

variable {fingerprint : JsString → JsString} {launched : Launch} {system after : System}
  {action : Action} {fact : Marks → Prop}

/-- The start comes to a stage, and may write the record there. -/
theorem Everywhere.goto (everywhere : Everywhere fact system) (daemon : Daemon) :
    Everywhere fact (system.goto daemon) where
  held := everywhere.held
  stored := everywhere.stored
  written := by
    intro call member
    cases writes : daemon.writes with
    | false =>
      rw [goto_idle writes] at member
      exact everywhere.written call member
    | true =>
      simp only [System.goto, writes, ↓reduceIte, mem_make] at member
      rcases member with known | rfl
      · exact everywhere.written call known
      · exact everywhere.held

/-- A step that changes neither the marks of the record nor what is on its way to the disk. -/
theorem Everywhere.same (everywhere : Everywhere fact system)
    (held : after.record.marks = system.record.marks)
    (stored : ∀ record, after.durable = some record → system.durable = some record)
    (writes : after.writes = system.writes) : Everywhere fact after where
  held := held ▸ everywhere.held
  stored record found := everywhere.stored record (stored record found)
  written := writes ▸ everywhere.written

/-- The start comes to another stage, and leaves the marks as they are. -/
theorem Everywhere.goes (everywhere : Everywhere fact system) {daemon : Daemon} {status : Status}
    {listed closed startSent : Bool} {pipe : List Frame} {worker : Worker}
    {durable : Option SessionRecord}
    (kept : ∀ record, durable = some record → system.durable = some record) :
    Everywhere fact
      ({ system with
        listed, closed, durable, pipe, worker, startSent
        record := { system.record with status } }.goto daemon) := by
  have moved : Everywhere fact
      { system with
        listed, closed, durable, pipe, worker, startSent
        record := { system.record with status } } := everywhere.same rfl kept rfl
  exact moved.goto daemon

/-- What holds of all copies of the record holds of those that a spawn makes. -/
theorem Everywhere.spawn (everywhere : Everywhere fact system)
    (unmarked : system.daemon.marking = false)
    (spawned : Spawned fingerprint launched system after) : Everywhere fact after := by
  cases spawned with
  | idle => exact everywhere
  | prepared stage | referred stage _ _ =>
    rw [stage] at unmarked
    cases unmarked
  | launches stage late calm => exact everywhere.goes fun _ => id
  | sends stage late => exact everywhere.goes fun _ => id
  | moves stage late calm early kept plain => exact everywhere.goes kept

/-- The first call in the queue is over, and its copy may be on disk. -/
theorem Everywhere.served (everywhere : Everywhere fact system) {call : Call SessionRecord}
    {rest : List (Call SessionRecord)} {durable : Option SessionRecord}
    (queue : system.writes.queue = call :: rest)
    (landed : durable = some call.copy ∨ durable = system.durable) :
    Everywhere fact { system with durable, writes := system.writes.next } where
  held := everywhere.held
  stored := by
    intro record found
    rcases landed with rfl | rfl
    · obtain rfl := Option.some.inj found
      exact everywhere.written call (by simp [Writes.all, queue])
    · exact everywhere.stored record found
  written call member := everywhere.written call (next_sublist.subset member)

/-- A write that is not made leaves what holds of all copies. -/
theorem Everywhere.missed (everywhere : Everywhere fact system) (index : Nat) :
    Everywhere fact { system with writes := system.writes.miss index } where
  held := everywhere.held
  stored := everywhere.stored
  written call member := everywhere.written call (miss_sublist.subset member)

/-- The start goes on, and leaves the marks as they are. -/
theorem Everywhere.resume (everywhere : Everywhere fact system)
    (unmarked : system.daemon.marking = false) {call : Call SessionRecord} {succeeds : Bool}
    (resumed : Resumed call succeeds system after) : Everywhere fact after := by
  cases resumed with
  | idle => exact everywhere
  | launches stage awaited done => exact everywhere.goto _
  | attempts stage _ | starts stage _ _ | gives stage _ =>
    rw [stage] at unmarked
    cases unmarked
  | moves awaited calm early unlaunched => exact everywhere.goes fun _ => id

/-- What a step of the worker leaves alone. -/
theorem Worked.kept (worked : Worked launched system after) :
    after.daemon = system.daemon ∧ after.record = system.record ∧
      after.durable = system.durable ∧ after.writes = system.writes ∧
      after.startSent = system.startSent ∧ after.deletedOnReceipt = system.deletedOnReceipt := by
  cases worked <;> exact ⟨rfl, rfl, rfl, rfl, rfl, rfl⟩

/-- Outside the stages that change the marks nothing with other marks comes up. -/
theorem Stepped.everywhere (stepped : Stepped fingerprint launched system action after)
    (unmarked : system.daemon.marking = false) (everywhere : Everywhere fact system) :
    Everywhere fact after := by
  cases stepped with
  | spawns spawned => exact everywhere.spawn unmarked spawned
  | works worked =>
    obtain ⟨_, record, durable, writes, _⟩ := worked.kept
    exact everywhere.same (by rw [record]) (fun _ found => durable ▸ found) writes
  | enters now =>
    exact ⟨everywhere.held, everywhere.stored,
      fun call member => everywhere.written call (mem_enter.mp member)⟩
  | served queue landed resumed =>
    exact (everywhere.served queue (landed.imp_right And.right)).resume unmarked resumed
  | missed there resumed => exact (everywhere.missed _).resume unmarked resumed
  | requests kept =>
    refine ⟨everywhere.held, everywhere.stored, ?_⟩
    intro call member
    rcases mem_make.mp member with known | rfl
    · exact everywhere.written call known
    · exact everywhere.held
  | crashes landed =>
    refine ⟨everywhere.held, ?_, fun call member => nomatch member⟩
    intro record found
    rcases landed with same | ⟨call, member, there⟩
    · exact everywhere.stored record (same ▸ found)
    · obtain rfl := Option.some.inj (there.symm.trans found)
      exact everywhere.written call member
  | loads stage found =>
    exact ⟨everywhere.stored _ found, everywhere.stored, everywhere.written⟩
  | deletes evidence => exact everywhere.same rfl (fun _ absent => nomatch absent) rfl

end Everywhere

section Ordered

variable {fingerprint : JsString → JsString} {launched : Launch} {system after : System}
  {action : Action}

/-- Where the start awaits no call, its writes are in order. -/
theorem ordered_quiet (quiet : system.writes.Quiet) : Ordered system :=
  ⟨fun _ => quiet, fun call member awaited => absurd awaited (by simp [quiet call member]),
    quiet.led⟩

/-- The start takes its copy of the record where it awaits no other call. -/
theorem ordered_goto (quiet : system.writes.Quiet) {record : SessionRecord}
    {listed closed startSent : Bool} {pipe : List Frame} {worker : Worker}
    {durable : Option SessionRecord} {daemon : Daemon} :
    Ordered ({ system with
      listed, closed, durable, pipe, worker, startSent, record }.goto daemon) := by
  cases writes : daemon.writes with
  | false =>
    rw [goto_idle writes]
    exact ordered_quiet quiet
  | true =>
    simp only [System.goto, writes, ↓reduceIte]
    refine ⟨?_, ?_, quiet.make⟩
    · intro still
      rw [show daemon.writes = false from still] at writes
      cases writes
    · intro call member awaited
      rcases mem_make.mp member with known | rfl
      · rw [quiet call known] at awaited
        cases awaited
      · rfl

/-- A spawn leaves the copies in order. -/
theorem Ordered.spawn (ordered : Ordered system)
    (spawned : Spawned fingerprint launched system after) : Ordered after := by
  cases spawned with
  | idle => exact ordered
  | prepared stage | launches stage _ _ | referred stage _ _ | sends stage _ =>
    exact ordered_goto (ordered.quiet (by rw [stage]; rfl))
  | moves stage late calm early kept plain => exact ordered_goto (ordered.quiet stage)

/-- A call of another request is over. -/
theorem Ordered.pass (ordered : Ordered system) {writes : Writes SessionRecord}
    {durable : Option SessionRecord} (fewer : List.Sublist writes.all system.writes.all)
    (led : writes.Led SessionRecord.carried) : Ordered { system with durable, writes } :=
  ⟨fun still other member => ordered.quiet still other (fewer.subset member),
    fun other member => ordered.own other (fewer.subset member), led⟩

/-- The start goes on where its own call is over, and nobody awaits another. -/
theorem Ordered.resume (ordered : Ordered system) {call : Call SessionRecord} {succeeds : Bool}
    (quiet : call.awaited = true → system.writes.Quiet)
    (resumed : Resumed call succeeds system after) : Ordered after := by
  cases resumed with
  | idle => exact ordered
  | launches _ awaited _ | attempts _ awaited | starts _ awaited _ | gives _ awaited
  | moves awaited _ _ _ => exact ordered_goto (quiet awaited)

/-- Only a write of the start that overtakes another could put the writes out of order. -/
theorem Stepped.ordered (stepped : Stepped fingerprint launched system action after)
    (ordered : Ordered system) (inOrder : system.InOrder action) : Ordered after := by
  cases stepped with
  | spawns spawned => exact ordered.spawn spawned
  | works worked =>
    obtain ⟨daemon, record, _, writes, _⟩ := worked.kept
    refine ⟨?_, ?_, ?_⟩
    · rw [daemon, writes]
      exact ordered.quiet
    · rw [record, writes]
      exact ordered.own
    · rw [writes]
      exact ordered.led
  | enters now =>
    subst now
    exact ⟨fun still call member => ordered.quiet still call (mem_enter.mp member),
      fun call member => ordered.own call (mem_enter.mp member), ordered.led.enter (inOrder _ rfl)⟩
  | served queue landed resumed =>
    exact (ordered.pass next_sublist ordered.led.next).resume
      (fun awaited => (ordered.led.served queue awaited).1) resumed
  | missed there resumed =>
    exact (ordered.pass miss_sublist ordered.led.miss).resume (ordered.led.missed there) resumed
  | @requests status kept =>
    refine ⟨?_, ?_, ordered.led.make ?_⟩
    · intro still call member
      rcases mem_make.mp member with known | rfl
      · exact ordered.quiet still call known
      · rfl
    · intro call member awaited
      rcases mem_make.mp member with known | rfl
      · exact ordered.own call known awaited
      · cases awaited
    · intro call member awaited
      have same := ordered.own call member awaited
      simp only [SessionRecord.marks, Marks.mk.injEq] at same
      simp [SessionRecord.carried, SessionRecord.marks, Marks.attempted, same]
  | crashes landed => exact ordered_quiet idle_quiet
  | loads stage found => exact ordered_quiet (ordered.quiet (by rw [stage]; rfl))
  | deletes evidence => exact ⟨ordered.quiet, ordered.own, ordered.led⟩

/-- The start's own write is over: what it carries is on disk, and in all that are on their way. -/
theorem Ordered.everywhere (ordered : Ordered system) {call : Call SessionRecord}
    {rest : List (Call SessionRecord)} (queue : system.writes.queue = call :: rest)
    (awaited : call.awaited = true) {fact : Marks → Prop}
    (carried : ∀ first second : SessionRecord, first.carried second → fact first.marks →
      fact second.marks)
    (held : fact system.record.marks) :
    Everywhere fact { system with durable := some call.copy, writes := system.writes.next } := by
  have own : fact call.copy.marks :=
    ordered.own call (by simp [Writes.all, queue]) awaited ▸ held
  refine ⟨held, fun record found => Option.some.inj found ▸ own, ?_⟩
  intro left member
  exact carried call.copy left.copy ((ordered.led.served queue awaited).2 left member) own

end Ordered

/-! ## Every run -/

/-- What the stages before the launch and before the start frame know of the record. -/
structure Known (fingerprint : JsString → JsString) (launched : Launch) (system : System) :
    Prop where
  authorizing : system.daemon = .authorizing ∨ system.daemon = .launching →
    system.record.marks = ⟨some false, some (launched.authority fingerprint)⟩
  attempting : system.daemon = .attempting → system.record.marks.attempted

/-- No start frame goes out before the attempt is everywhere. -/
structure Guarded (system : System) : Prop where
  early : system.daemon.unstarted = true → system.startSent = false
  starting : system.daemon = .starting → Everywhere Marks.attempted system
  sent : system.startSent = true → Everywhere Marks.attempted system

/-- What holds in every run in which no write of the start overtakes what it should not. -/
structure Sound (fingerprint : JsString → JsString) (launched : Launch) (system : System) :
    Prop where
  childless : Childless system
  ordered : Ordered system
  known : Known fingerprint launched system
  guarded : Guarded system
  launching : system.daemon = .launching → system.durable ≠ none ∧
    Everywhere (·.workerPrestart = some (launched.authority fingerprint)) system
  deleted : system.deletedOnReceipt = true → system.Barren

section Runs

variable {fingerprint : JsString → JsString} {launched : Launch} {system after : System}
  {action : Action}

/-- A stage after the launch and after the attempt knows nothing. -/
theorem known_calm (calm : system.daemon.armed = false) : Known fingerprint launched system := by
  constructor
  · rintro (stage | stage) <;> rw [stage] at calm <;> cases calm
  · intro stage
    rw [stage] at calm
    cases calm

/-- A step that changes neither the stage nor the marks. -/
theorem Known.same (known : Known fingerprint launched system)
    (daemon : after.daemon = system.daemon) (marks : after.record.marks = system.record.marks) :
    Known fingerprint launched after where
  authorizing := by
    rw [daemon, marks]
    exact known.authorizing
  attempting := by
    rw [daemon, marks]
    exact known.attempting

/-- The code behind a write leaves what is known. -/
theorem Known.resume (known : Known fingerprint launched system) {call : Call SessionRecord}
    {succeeds : Bool} (resumed : Resumed call succeeds system after) :
    Known fingerprint launched after := by
  cases resumed with
  | idle => exact known
  | launches stage awaited done =>
    exact ⟨fun _ => known.authorizing (.inl stage), fun other => nomatch other⟩
  | attempts stage awaited =>
    refine ⟨fun other => (nomatch other), fun _ => ?_⟩
    simp [System.goto, SessionRecord.marks, Marks.attempted]
  | starts stage awaited done => exact ⟨fun other => (nomatch other), fun other => nomatch other⟩
  | gives stage awaited => exact known_calm rfl
  | moves awaited calm early unlaunched => exact known_calm calm

/-- One step leaves what is known. -/
theorem Stepped.known (stepped : Stepped fingerprint launched system action after)
    (known : Known fingerprint launched system) : Known fingerprint launched after := by
  cases stepped with
  | spawns spawned =>
    cases spawned with
    | idle => exact known
    | prepared stage => exact ⟨fun _ => rfl, fun other => nomatch other⟩
    | launches stage late calm | referred stage late calm => exact known_calm calm
    | sends stage late => exact known_calm (Daemon.armed_of_late late)
    | moves stage late calm early kept plain => exact known_calm calm
  | works worked =>
    obtain ⟨daemon, record, _⟩ := worked.kept
    exact known.same daemon (by rw [record])
  | enters now => exact known.same rfl rfl
  | served queue landed resumed | missed there resumed =>
    refine Known.resume ?_ resumed
    exact known.same rfl rfl
  | requests kept => exact known.same rfl rfl
  | crashes landed => exact known_calm rfl
  | loads stage found => exact known_calm rfl
  | deletes evidence => exact known.same rfl rfl

/-- A stage that is armed is not calm. -/
theorem Daemon.never_calm {daemon : Daemon} (calm : daemon.armed = false) {fact : Prop}
    (armed : daemon.armed = true) : fact := by
  rw [calm] at armed
  cases armed

/-- A stage that needs its record on disk comes after the write of that record. -/
theorem Stepped.reaches (stepped : Stepped fingerprint launched system action after)
    {stage : Daemon} (needs : after.daemon.writtenBefore = some stage) :
    system.daemon = after.daemon ∨ system.daemon = stage ∧
      ∃ call rest, system.writes.queue = call :: rest ∧ call.awaited = true ∧
        after = { system with
          durable := some call.copy
          writes := system.writes.next }.goto after.daemon := by
  have armed := Daemon.armed_of_written needs
  cases stepped with
  | spawns spawned =>
    cases spawned with
    | idle => exact .inl rfl
    | prepared stage => cases needs
    | launches stage late calm | referred stage late calm => exact Daemon.never_calm calm armed
    | sends stage late => exact Daemon.never_calm (Daemon.armed_of_late late) armed
    | moves stage late calm early kept plain => exact Daemon.never_calm calm armed
  | works worked => exact .inl worked.kept.1.symm
  | @served call rest succeeds durable _ queue landed resumed =>
    have stored (done : succeeds = true) : durable = some call.copy := by
      rcases landed with there | ⟨failed, _⟩
      · exact there
      · rw [done] at failed
        cases failed
    cases resumed with
    | idle => exact .inl rfl
    | launches before awaited done | starts before awaited done =>
      cases needs
      obtain rfl := stored done
      exact .inr ⟨before, call, rest, queue, awaited, rfl⟩
    | attempts before awaited | gives before awaited => cases needs
    | moves awaited calm early unlaunched => exact Daemon.never_calm calm armed
  | missed there resumed =>
    cases resumed with
    | idle => exact .inl rfl
    | launches before awaited done | starts before awaited done => cases done
    | attempts before awaited | gives before awaited => cases needs
    | moves awaited calm early unlaunched => exact Daemon.never_calm calm armed
  | crashes _ | loads _ _ => cases needs
  | enters _ | requests _ | deletes _ => exact .inl rfl

/-- The start never comes back to an earlier stage. -/
theorem Resumed.unstarted {call : Call SessionRecord} {succeeds : Bool}
    (resumed : Resumed call succeeds system after) (early : after.daemon.unstarted = true) :
    system.daemon.unstarted = true := by
  cases resumed with
  | idle => exact early
  | launches stage _ _ | attempts stage _ | starts stage _ _ | gives stage _ =>
    rw [stage]
    rfl
  | moves _ _ earlier _ => exact earlier early

/-- A start frame is sent at the starting stage only, which is left for good. -/
theorem Stepped.sends (stepped : Stepped fingerprint launched system action after) :
    (after.daemon.unstarted = true → system.daemon.unstarted = true) ∧
      (after.startSent = system.startSent ∨
        system.daemon = .starting ∧ after.daemon.unstarted = false) := by
  cases stepped with
  | spawns spawned =>
    cases spawned with
    | idle => exact ⟨id, .inl rfl⟩
    | prepared stage | launches stage _ _ | referred stage _ _ =>
      exact ⟨fun _ => by rw [stage]; rfl, .inl rfl⟩
    | sends stage late => exact ⟨fun _ => by rw [stage]; rfl, .inr ⟨stage, late⟩⟩
    | moves stage late calm early kept plain => exact ⟨early, .inl rfl⟩
  | works worked =>
    obtain ⟨daemon, _, _, _, sent, _⟩ := worked.kept
    exact ⟨fun early => daemon ▸ early, .inl sent⟩
  | served _ _ resumed | missed _ resumed =>
    exact ⟨resumed.unstarted, .inl resumed.kept.2.2.1⟩
  | crashes _ | loads _ _ => exact ⟨fun other => (nomatch other), .inl rfl⟩
  | enters _ | requests _ | deletes _ => exact ⟨id, .inl rfl⟩

/-- The attempt is everywhere before the start frame goes out, and stays there. -/
theorem Stepped.guarded (stepped : Stepped fingerprint launched system action after)
    (guarded : Guarded system) (ordered : Ordered system)
    (known : Known fingerprint launched system) : Guarded after := by
  obtain ⟨unstarted, sends⟩ := stepped.sends
  have late (sent : system.startSent = true) : system.daemon.unstarted = false := by
    by_contra early
    rw [guarded.early (by simpa using early)] at sent
    cases sent
  constructor
  · intro early
    rcases sends with same | ⟨_, late⟩
    · exact same.trans (guarded.early (unstarted early))
    · rw [early] at late
      cases late
  · intro stage
    have needs : after.daemon.writtenBefore = some .attempting := by rw [stage]; rfl
    rcases stepped.reaches needs with stays | ⟨attempting, call, rest, queue, awaited, reached⟩
    · have before := stays.trans stage
      exact stepped.everywhere (by rw [before]; rfl) (guarded.starting before)
    · rw [reached]
      exact (ordered.everywhere queue awaited (fun _ _ carried => carried.1)
        (known.attempting attempting)).goto _
  · intro sent
    rcases sends with same | ⟨stage, _⟩
    · have before := same.symm.trans sent
      exact stepped.everywhere (Daemon.marking_of_late (late before)) (guarded.sent before)
    · exact stepped.everywhere (by rw [stage]; rfl) (guarded.starting stage)

/-- A verified receipt is deleted on only where no start was attempted. -/
theorem receiptVerified_unattempted (verified : system.receiptVerified fingerprint = true) :
    system.record.workerStartAttempted = some false ∧ system.receipt ≠ none := by
  unfold System.receiptVerified at verified
  split at verified
  next authority receipt authorized found =>
    refine ⟨?_, by simp [found]⟩
    unfold SessionRecord.prestartReceiptAuthority at authorized
    split_ifs at authorized with unattempted
    exact unattempted.1
  · cases verified

/-- There is no evidence to delete the session on before the worker is launched. -/
theorem Stepped.stored (stepped : Stepped fingerprint launched system action after)
    (sound : Sound fingerprint launched system) (before : system.daemon = .launching)
    (stays : after.daemon = .launching) : after.durable ≠ none := by
  have found := (sound.launching before).1
  have never {daemon : Daemon} (late : daemon.unlaunched = false) (now : daemon = .launching)
      {fact : Prop} : fact :=
    Daemon.never_early late (by rw [now]; rfl)
  cases stepped with
  | spawns spawned =>
    cases spawned with
    | idle => exact found
    | prepared stage | referred stage _ _ | sends stage _ => cases before.symm.trans stage
    | launches stage late calm => exact never late stays
    | moves stage late calm early kept plain => exact never late stays
  | works worked =>
    rw [worked.kept.2.2.1]
    exact found
  | served queue landed resumed =>
    rw [resumed.kept.2.2.2.2]
    rcases landed with rfl | ⟨_, rfl⟩
    · exact Option.some_ne_none _
    · exact found
  | missed there resumed =>
    rw [resumed.kept.2.2.2.2]
    exact found
  | crashes _ => cases stays
  | loads _ _ => cases stays
  | enters _ | requests _ => exact found
  | deletes evidence =>
    have early := sound.childless.early (by rw [before]; rfl)
    have marks := sound.known.authorizing (.inr before)
    rcases evidence with ⟨_, verified⟩ | ⟨_, status | attempted⟩
    · exact absurd (sound.childless.absent early.1) (receiptVerified_unattempted verified).2
    · exact absurd early.2 status
    · rw [show system.record.workerStartAttempted = some false from
        congrArg Marks.workerStartAttempted marks] at attempted
      cases attempted

/-- Where a worker is launched, all copies of the record have its authority. -/
theorem Stepped.launching (stepped : Stepped fingerprint launched system action after)
    (sound : Sound fingerprint launched system) (stage : after.daemon = .launching) :
    after.durable ≠ none ∧
      Everywhere (·.workerPrestart = some (launched.authority fingerprint)) after := by
  have needs : after.daemon.writtenBefore = some .authorizing := by rw [stage]; rfl
  rcases stepped.reaches needs with stays | ⟨authorizing, call, rest, queue, awaited, reached⟩
  · have before := stays.trans stage
    exact ⟨stepped.stored sound before stage,
      stepped.everywhere (by rw [before]; rfl) (sound.launching before).2⟩
  · have held : system.record.marks.workerPrestart = some (launched.authority fingerprint) := by
      rw [sound.known.authorizing (.inl authorizing)]
    rw [reached]
    refine ⟨Option.some_ne_none _, (sound.ordered.everywhere queue awaited ?_ held).goto _⟩
    intro first second carried known
    have present : first.workerPrestart ≠ none := by
      rw [show first.workerPrestart = _ from known]
      exact Option.some_ne_none _
    exact (carried.2 present).trans known

/-- The session is deleted on a receipt where the worker has ended without a child. -/
theorem Stepped.deleted (stepped : Stepped fingerprint launched system action after)
    (sound : Sound fingerprint launched system) (deleted : after.deletedOnReceipt = true) :
    after.Barren := by
  have receipt (verified : system.receiptVerified fingerprint = true) : system.Barren := by
    obtain ⟨unattempted, left⟩ := receiptVerified_unattempted verified
    refine sound.childless.barren ?_ left
    by_contra sent
    rw [Bool.not_eq_false] at sent
    exact (sound.guarded.sent sent).held unattempted
  have before : system.deletedOnReceipt = true ∨ system.receiptVerified fingerprint = true := by
    cases stepped with
    | spawns spawned => cases spawned <;> exact .inl deleted
    | works worked => exact .inl (worked.kept.2.2.2.2.2.symm.trans deleted)
    | served _ _ resumed | missed _ resumed =>
      exact .inl (resumed.kept.2.2.2.1.symm.trans deleted)
    | enters _ | requests _ | crashes _ | loads _ _ => exact .inl deleted
    | deletes evidence =>
      rcases evidence with ⟨_, verified⟩ | ⟨same, _⟩
      · exact .inr verified
      · exact .inl (same.symm.trans deleted)
  exact stepped.barren sound.childless (before.elim sound.deleted receipt)

/-- One step keeps all of this, where no write of the start overtakes what it should not. -/
theorem step_sound (sound : Sound fingerprint launched system) (inOrder : system.InOrder action) :
    Sound fingerprint launched (system.step fingerprint launched action) := by
  have stepped := @step_stepped fingerprint launched system action
  exact
    { childless := stepped.childless sound.childless
      ordered := stepped.ordered sound.ordered inOrder
      known := stepped.known sound.known
      guarded := stepped.guarded sound.guarded sound.ordered sound.known
      launching := stepped.launching sound
      deleted := stepped.deleted sound }

/-- A session that is not started yet is sound. -/
theorem opened_sound : Sound fingerprint launched System.opened where
  childless := opened_childless
  ordered := @ordered_goto { System.opened with writes := .idle } idle_quiet
    System.opened.record true false false [] .absent none .creating
  known := known_calm rfl
  guarded := ⟨fun _ => rfl, fun other => (nomatch other), fun other => nomatch other⟩
  launching other := nomatch other
  deleted other := nomatch other

/-- A run of steps in order is sound. -/
theorem run_sound (sound : Sound fingerprint launched system) {actions : List Action}
    (inOrder : Along (System.step fingerprint launched) System.InOrder system actions) :
    Sound fingerprint launched (run (System.step fingerprint launched) system actions) :=
  @run_preserves_along _ _ (System.step fingerprint launched) System.InOrder
    (Sound fingerprint launched) (fun _ _ sound inOrder => step_sound sound inOrder) system
    actions sound inOrder

end Runs

/-- Whatever fails and whoever dies, the record and the authority are on disk ahead of the start
frame and of the worker, and a receipt tells that there is no child and never will be. -/
theorem start_written_ahead (fingerprint : JsString → JsString) (launched : Launch)
    (actions : List Action)
    (inOrder : Along (System.step fingerprint launched) System.InOrder System.opened actions) :
    WriteAhead fingerprint launched
      (run (System.step fingerprint launched) System.opened actions) := by
  have sound : Sound fingerprint launched
      (run (System.step fingerprint launched) System.opened actions) :=
    run_sound opened_sound inOrder
  constructor
  · intro record stored unattempted
    by_contra sent
    rw [Bool.not_eq_false] at sent
    exact (sound.guarded.sent sent).stored record stored unattempted
  · intro action absent present
    have stage : (run (System.step fingerprint launched) System.opened actions).daemon =
        .launching := by
      by_contra other
      exact present ((step_stepped action).absent other absent)
    obtain ⟨found, everywhere⟩ := sound.launching stage
    obtain ⟨record, there⟩ := Option.ne_none_iff_exists'.mp found
    exact ⟨record, there, everywhere.stored record there⟩
  · intro written later
    exact (run_barren sound.childless (sound.childless.written written) later).childless
  · intro deleted later
    exact (run_barren sound.childless (sound.deleted deleted) later).childless

/-! ## Two runs -/

/-- What `prepare` chooses, and the worker that it launches. -/
def listening : Launch where
  workerId := js "0b54a3d2-6b0e-4c55-9d0f-1f2f6d3c9a10"
  workerControlToken := js "0123456789abcdef0123456789abcdef0123456789abcdef0123456789abcdef"
  pid := 4821
  processIdentity := js "4821:98213345"
  endpoint := js "http://127.0.0.1:49152"

/-- The digest of its token. -/
def listeningFingerprint (token : JsString) : JsString :=
  if token = listening.workerControlToken then
    js "a8ae6e6ee929abea3afcfc5258c8ccd6f85273e0d4626d26c7279f3250f77c8e"
  else js ""

/-- A daemon that dies before it sends the start frame, with a wait that settled in time, and the
next one. -/
def deadBeforeStart : List Action :=
  [.enter 0, .written true true, .prepare true, .enter 0, .written true true, .launch true true,
    .bootstrap true, .boot true, .request none, .enter 0, .ready true true, .enter 0,
    .written true true, .written true true, .crash false, .control true, .restart, .reconcile true]

/-- The session of the worker that left its receipt is deleted, and has no child. -/
theorem start_written_ahead_dead :
    let system := run (System.step listeningFingerprint listening) System.opened deadBeforeStart
    system.deletedOnReceipt = true ∧ WriteAhead listeningFingerprint listening system := by
  refine ⟨by decide, start_written_ahead listeningFingerprint listening deadBeforeStart ?_⟩
  decide

/-- A wait settles while the reference is being written. Its call is overtaken by the write of the
attempt. -/
def overtakenWait : List Action :=
  [.enter 0, .written true true, .prepare true, .enter 0, .written true true, .launch true true,
    .bootstrap true, .boot true, .ready true true, .request none, .enter 0, .written true true,
    .enter 1, .written true true, .start true, .enter 0, .written true true, .control true,
    .spawnChild true]

/-- The record on disk says that no start was attempted, and the child runs. -/
theorem attempt_overtaken :
    let system := run (System.step listeningFingerprint listening) System.opened overtakenWait
    system.durable.any (·.workerStartAttempted = some false) = true ∧ system.startSent = true ∧
      system.childCreated = true ∧ ¬ WriteAhead listeningFingerprint listening system := by
  refine ⟨by decide, by decide, by decide, fun ahead => ?_⟩
  cases ahead.unattempted _ rfl rfl

end OpencodePty.StartProtocol
