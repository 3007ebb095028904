import StateProvenance.Coordinator
import StateProvenance.Framing
import StateProvenance.PublishExact
import StateProvenance.SaveFile
import StateProvenance.SnapshotFile
import StateProvenance.SnapshotStream

/-! The coordinator process while it serves: its globals, and a thread for each connection. A thread takes a frame,
handles it in steps of one call on a global each, and sends one response; any thread may take the next step. The
evaluation of a claim, which reads the authority without a lock, is taken as one step too: a reading torn by a writer
is left out. No bytes from the connections make a handler throw. -/

namespace StateProvenance

open Std Library.OrderedMap Library.ByteCodec Library.Runs ProvenanceStore

inductive Op
  | hello | publish | respond | rollEpoch | setAuthority | save | load | query | shutdown | publishStale | stats
deriving DecidableEq

def Op.code : Op → UInt8
  | .hello => 1
  | .publish => 2
  | .respond => 3
  | .rollEpoch => 4
  | .setAuthority => 5
  | .save => 6
  | .load => 7
  | .query => 8
  | .shutdown => 9
  | .publishStale => 10
  | .stats => 11

def Op.ofCode (b : UInt8) : Option Op :=
  [.hello, .publish, .respond, .rollEpoch, .setAuthority, .save, .load, .query, .shutdown, .publishStale,
    .stats].find? fun op : Op => op.code = b

/-! Texts. A character stands for one byte. -/

def bytesOf (text : String) : ByteString := text.toList.map fun c => c.toNat.toUInt8

def textOf (bytes : ByteString) : String := String.ofList (bytes.map fun b => Char.ofNat b.toNat)

/-- What is left of a text that is printed into a buffer of `n` characters. -/
def snprintf (n : ℕ) (text : String) : String := String.ofList (text.toList.take (n - 1))

def presentText (rec : ProvenanceRecord) (v : EnumValue ValidityState) (size : ℕ) : String :=
  snprintf 256 ("present;kind=" ++ rec.d.subjectKind.nameOf ++ ";validity=" ++ v.nameOf
    ++ ";derivation_digest=" ++ rec.derivationDigest ++ ";prov_gen=" ++ rec.d.provenanceGeneration.toText
    ++ ";state_gen=" ++ rec.d.stateGeneration.toText ++ ";model_gen=" ++ rec.d.modelGeneration.toText
    ++ ";evidence=" ++ rec.d.evidence.nameOf ++ ";size=" ++ toString size)

/-! The globals, and the arguments of the `Stats` response, which are read in no particular order. -/

structure Globals where
  store : ProvenanceStore := {}
  accepted : Int64 := 0
  rejected : Int64 := 0
  stopping : Bool := false

inductive StatsArg
  | accepted | rejected | epoch | provGen | size

structure StatsArgs where
  accepted : Option Int64 := none
  rejected : Option Int64 := none
  epoch : Option UInt64 := none
  provGen : Option ProvenanceGeneration := none
  size : Option ℕ := none

def StatsArgs.read (args : StatsArgs) (g : Globals) : StatsArg → StatsArgs
  | .accepted => { args with accepted := args.accepted.or (some g.accepted) }
  | .rejected => { args with rejected := args.rejected.or (some g.rejected) }
  | .epoch => { args with epoch := args.epoch.or (some g.store.authority.epoch) }
  | .provGen => { args with provGen := args.provGen.or (some g.store.authoritySnapshot.provenanceGeneration) }
  | .size => { args with size := args.size.or (some g.store.size) }

def StatsArgs.text (args : StatsArgs) : Option String := do
  let accepted ← args.accepted
  let rejected ← args.rejected
  let epoch ← args.epoch
  let provGen ← args.provGen
  let size ← args.size
  pure (snprintf 128 ("accepted=" ++ toString accepted ++ ";rejected=" ++ toString rejected
    ++ ";epoch=" ++ toString epoch.toNat ++ ";prov_gen=" ++ provGen.toText ++ ";size=" ++ toString size))

inductive Task
  | registerBoot (wid : WorkerId) (bid : WorkerBootId)
  | authoritySummary
  | evaluate (d : RecordData) (c : AuthorityClaim)
  | insert (d : RecordData)
  | countAccepted
  | countRejected (error : String)
  | malformed
  | countMalformed
  | rollEpoch
  | setAuthority (ops : List AuthorityOp)
  | snapshot
  | saveFile (snap : StoreSnapshot)
  | find (sid : StateId)
  | validityOf (sid : StateId) (rec : ProvenanceRecord)
  | size (sid : StateId) (rec : ProvenanceRecord) (v : EnumValue ValidityState)
  | stats (args : StatsArgs)
  | respond (text : String)
  | bye
  | stop

inductive Thread
  | checking
  | receiving
  | handling (f : Frame) (task : Task)
  | closed

namespace Task

def start (f : Frame) : Task :=
  match Op.ofCode f.op with
  | some .hello =>
    if f.payload.length ≥ 16 then
      let (wid, r) := BinaryReader.u64 ⟨f.payload, true⟩
      let (bid, _) := r.u64
      .registerBoot ⟨wid.getD 0⟩ ⟨bid.getD 0⟩
    else .authoritySummary
  | some .publish | some .publishStale =>
    match decodePublishPayload f.payload with
    | none => .malformed
    | some (d, c) => .evaluate d c
  | some .rollEpoch => .rollEpoch
  | some .setAuthority => .setAuthority (setAuthorityOps f.payload)
  | some .save => .snapshot
  | some .query =>
    if f.payload.length ≥ 8 then .find ⟨(BinaryReader.u64 ⟨f.payload, true⟩).1.getD 0⟩
    else .respond "err:bad query"
  | some .stats => .stats {}
  | some .shutdown => .bye
  | some .respond | some .load | none => .respond "err:unknown op"

def sent : Task → Option String
  | .malformed => some "err:malformed publish"
  | .respond text => some text
  | .bye => some "bye"
  | _ => none

def step (f : Frame) (o : CallOutcomes) (arg : StatsArg) (g : Globals) : Task → Except String (Globals × Thread)
  | .registerBoot wid bid =>
    .ok ({ g with store := g.store.applyAuthority (.registerBoot wid bid) }, .handling f .authoritySummary)
  | .authoritySummary => .ok (g, .handling f (.respond (StateProvenance.authoritySummary g.store)))
  | .evaluate d c =>
    match g.store.rejection d c with
    | some r => .ok (g, .handling f (.countRejected r.error))
    | none => .ok (g, .handling f (.insert d))
  | .insert d =>
    match g.store.publishValidated d with
    | (.error e, _) => .error e.what
    | (.ok r, s) =>
      .ok ({ g with store := s }, .handling f (if r.ok then .countAccepted else .countRejected r.error))
  | .countAccepted => .ok ({ g with accepted := g.accepted + 1 }, .handling f (.respond "ok"))
  | .countRejected error => .ok ({ g with rejected := g.rejected + 1 }, .handling f (.respond ("err:" ++ error)))
  | .malformed => .ok (g, .handling f .countMalformed)
  | .countMalformed => .ok ({ g with rejected := g.rejected + 1 }, .checking)
  | .rollEpoch =>
    let s := g.store.applyAuthority .rollEpoch
    .ok ({ g with store := s }, .handling f (.respond ("epoch=" ++ toString s.authority.epoch.toNat)))
  | .setAuthority [] => .ok (g, .handling f (.respond "ok"))
  | .setAuthority (op :: ops) =>
    .ok ({ g with store := g.store.applyAuthority op }, .handling f (.setAuthority ops))
  | .snapshot => .ok (g, .handling f (.saveFile g.store.snapshot))
  | .saveFile snap =>
    match (StateProvenance.saveFile snap (textOf f.payload) o).1 with
    | .error e => .error e
    | .ok (some e) => .ok (g, .handling f (.respond ("err:" ++ e)))
    | .ok none => .ok (g, .handling f (.respond ("saved;digest=" ++ storeDigest snap)))
  | .find sid =>
    match g.store.find sid with
    | none => .ok (g, .handling f (.respond "absent"))
    | some rec => .ok (g, .handling f (.validityOf sid rec))
  | .validityOf sid rec => .ok (g, .handling f (.size sid rec (g.store.validityOf sid)))
  | .size _ rec v => .ok (g, .handling f (.respond (presentText rec v g.store.size)))
  | .stats args =>
    let args := args.read g arg
    match args.text with
    | none => .ok (g, .handling f (.stats args))
    | some text => .ok (g, .handling f (.respond text))
  | .respond _ => .ok (g, .checking)
  | .bye => .ok (g, .handling f .stop)
  | .stop => .ok ({ g with stopping := true }, .closed)

end Task

structure Connection where
  inbox : ByteString := []
  outbox : ByteString := []
  thread : Thread := .checking

/-- A connection that is not accepted yet is one that has not checked for the end. `failure` is the exception that
ended the process. -/
structure Service where
  globals : Globals
  conns : ℕ → Connection := fun _ => {}
  failure : Option String := none

inductive ServiceEvent
  | arrive (conn : ℕ) (bytes : ByteString)
  | act (conn : ℕ) (o : CallOutcomes) (arg : StatsArg)

def ServiceEvent.conn : ServiceEvent → ℕ
  | .arrive i _ => i
  | .act i _ _ => i

inductive Traffic
  | received (conn : ℕ) (f : Frame)
  | answered (conn : ℕ) (f : Frame) (text : String)
deriving DecidableEq

def response (text : String) : Frame := ⟨Op.respond.code, bytesOf text⟩

def Connection.send (c : Connection) (text : Option String) : Connection :=
  { c with outbox := text.elim c.outbox fun text => sendCall c.outbox (response text) }

namespace Service

def start (s : ProvenanceStore) : Service := { globals := { store := s } }

def setConn (t : Service) (i : ℕ) (c : Connection) : Service := { t with conns := Function.update t.conns i c }

def act (t : Service) (i : ℕ) (o : CallOutcomes) (arg : StatsArg) : Service :=
  let c := t.conns i
  match c.thread with
  | .checking => t.setConn i { c with thread := if t.globals.stopping then .closed else .receiving }
  | .receiving =>
    -- Without a whole frame the thread waits, and for good behind a length that is no frame's.
    match recvFrame c.inbox with
    | none => t
    | some (f, rest) => t.setConn i { c with inbox := rest, thread := .handling f (.start f) }
  | .handling f task =>
    match task.step f o arg t.globals with
    | .error e => { t with failure := some e }
    | .ok (globals, thread) => { t with globals }.setConn i { c.send task.sent with thread }
  | .closed => t

def step (t : Service) : ServiceEvent → Service
  | .arrive i bytes => t.setConn i { t.conns i with inbox := (t.conns i).inbox ++ bytes }
  | .act i o arg => if t.failure.isSome then t else t.act i o arg

def traffic (t : Service) : ServiceEvent → Option Traffic
  | .arrive _ _ => none
  | .act i _ _ =>
    if t.failure.isSome then none
    else
      match (t.conns i).thread with
      | .receiving => (recvFrame (t.conns i).inbox).map fun x => .received i x.1
      | .handling f task => task.sent.map (.answered i f)
      | _ => none

def history (t : Service) (es : List ServiceEvent) : List Traffic := observe step traffic t es

end Service

def startStore : Option ByteString → Option ProvenanceStore
  | none => some {}
  | some bytes => loadStore bytes

namespace ProvenanceStore

structure Savable (s : ProvenanceStore) : Prop extends Core s where
  strings : StringsFit s.snapshot

inductive Grows (s : ProvenanceStore) : ProvenanceStore → Prop
  | same : Grows s s
  | authority (op : AuthorityOp) : Grows s (s.applyAuthority op)
  | insert (d : RecordData) (g : ProvenanceGraph) (hd : Readable d) (hi : s.Insertable d) (hg : s.Linked d g) :
      Grows s (s.commit d g)

lemma stringsFit_snapshot_iff (s : ProvenanceStore) : StringsFit s.snapshot ↔
    (∀ (x : StateId) rec, s.records[x]? = some rec → ∀ t ∈ rec.d.strings, t.length ≤ kMaxStringLen.toNat) ∧
      ∀ (x : StateId) st, s.status[x]? = some st → st.detail.length ≤ kMaxStringLen.toNat := by
  constructor
  · intro h
    exact ⟨fun x rec hx => h.records rec ((mem_snapshot s rec).mpr ⟨x, hx⟩),
      fun x st hx => h.details (x, st) (ExtTreeMap.mem_toList_iff_getElem?_eq_some.mpr hx)⟩
  · rintro ⟨hrecords, hdetails⟩
    refine ⟨fun rec hr => ?_, fun e he => hdetails e.1 e.2 (ExtTreeMap.mem_toList_iff_getElem?_eq_some.mp he)⟩
    obtain ⟨x, hx⟩ := (mem_snapshot s rec).mp hr
    exact hrecords x rec hx

lemma Savable.fileImage {s : ProvenanceStore} (h : s.Savable) : ∃ bytes, fileImage s.snapshot = .ok bytes := by
  obtain ⟨payload, hp⟩ := (emits_snapshotChunks_iff s.snapshot).mpr h.strings
  exact fileImage_eq_ok hp

section Grows

variable {s s' : ProvenanceStore} (h : s.Grows s')

include h

lemma Grows.savable (hs : s.Savable) : s'.Savable := by
  cases h with
  | same => exact hs
  | authority op => exact ⟨hs.toCore.applyAuthority op, hs.strings.records, hs.strings.details⟩
  | insert d g hd hi hg =>
    obtain ⟨hrecords, hdetails⟩ := (stringsFit_snapshot_iff s).mp hs.strings
    have hnote : d.note ∈ d.strings := by simp [RecordData.strings]
    refine ⟨hs.toCore.commit hi hd.valid hg, (stringsFit_snapshot_iff _).mpr ⟨fun x rec hx => ?_, fun x st hx => ?_⟩⟩
    · rw [getElem?_commit_records] at hx
      split at hx
      · obtain rfl := Option.some.inj hx
        exact hd.bounds.strings
      · exact hrecords x rec hx
    · rw [getElem?_commit_status] at hx
      split at hx
      · obtain rfl := Option.some.inj hx
        exact hd.bounds.strings _ hnote
      · exact hdetails x st hx

variable {x : StateId} {rec : ProvenanceRecord} (hx : s.find x = some rec)

include hx

lemma Grows.find : s'.find x = some rec := by
  cases h with
  | same => exact hx
  | authority op => exact hx
  | insert d g hd hi hg =>
    have hne : d.subjectId ≠ x := by
      rintro rfl
      exact hi.newSubject (ExtTreeMap.mem_iff_isSome_getElem?.mpr (Option.isSome_of_eq_some hx))
    rw [ProvenanceStore.find, getElem?_commit_records, if_neg hne]
    exact hx

lemma Grows.validityOf : s'.validityOf x = s.validityOf x := by
  cases h with
  | same => rfl
  | authority op => rfl
  | insert d g hd hi hg =>
    have hne : d.subjectId ≠ x := by
      rintro rfl
      exact hi.newSubject (ExtTreeMap.mem_iff_isSome_getElem?.mpr (Option.isSome_of_eq_some hx))
    rw [ProvenanceStore.validityOf, getElem?_commit_status, if_neg hne]
    rfl

end Grows

end ProvenanceStore

def IsPublish (f : Frame) : Prop := Op.ofCode f.op = some .publish ∨ Op.ofCode f.op = some .publishStale

inductive Task.Starts (f : Frame) : Task → Prop
  | hello (wid : WorkerId) (bid : WorkerBootId) (hop : Op.ofCode f.op = some .hello) : Starts f (.registerBoot wid bid)
  | summary (hop : Op.ofCode f.op = some .hello) : Starts f .authoritySummary
  | publish (d : RecordData) (c : AuthorityClaim) (hop : IsPublish f)
      (hd : decodePublishPayload f.payload = some (d, c)) : Starts f (.evaluate d c)
  | malformed (hop : IsPublish f) (hd : decodePublishPayload f.payload = none) : Starts f .malformed
  | rollEpoch (hop : Op.ofCode f.op = some .rollEpoch) : Starts f .rollEpoch
  | setAuthority (ops : List AuthorityOp) (hop : Op.ofCode f.op = some .setAuthority) : Starts f (.setAuthority ops)
  | save (hop : Op.ofCode f.op = some .save) : Starts f .snapshot
  | query (hop : Op.ofCode f.op = some .query) (hlen : f.payload.length ≥ 8) :
      Starts f (.find ⟨(BinaryReader.u64 ⟨f.payload, true⟩).1.getD 0⟩)
  | badQuery (hop : Op.ofCode f.op = some .query) (hlen : ¬ f.payload.length ≥ 8) : Starts f (.respond "err:bad query")
  | stats (hop : Op.ofCode f.op = some .stats) : Starts f (.stats {})
  | shutdown (hop : Op.ofCode f.op = some .shutdown) : Starts f .bye
  | unknown (hop : Op.ofCode f.op ∈ [some .respond, some .load, none]) : Starts f (.respond "err:unknown op")

lemma Task.starts_publish {f : Frame} (hop : IsPublish f) : Task.Starts f
    (match decodePublishPayload f.payload with | none => .malformed | some (d, c) => .evaluate d c) := by
  split
  · next hd => exact .malformed hop hd
  · next d c hd => exact .publish d c hop hd

lemma Task.starts (f : Frame) : Task.Starts f (.start f) := by
  rw [Task.start]
  split
  · next hop =>
    split
    · exact .hello _ _ hop
    · exact .summary hop
  · next hop => exact Task.starts_publish (.inl hop)
  · next hop => exact Task.starts_publish (.inr hop)
  · next hop => exact .rollEpoch hop
  · next hop => exact .setAuthority _ hop
  · next hop => exact .save hop
  · next hop =>
    split
    · next hlen => exact .query hop hlen
    · next hlen => exact .badQuery hop hlen
  · next hop => exact .stats hop
  · next hop => exact .shutdown hop
  all_goals
    next hop => exact .unknown (by simp [hop])

inductive Task.Steps (f : Frame) (g : Globals) : Task → Globals → Thread → Prop
  | registered (wid : WorkerId) (bid : WorkerBootId) : Steps f g (.registerBoot wid bid)
      { g with store := g.store.applyAuthority (.registerBoot wid bid) } (.handling f .authoritySummary)
  | summarized : Steps f g .authoritySummary g (.handling f (.respond (StateProvenance.authoritySummary g.store)))
  | refused (d : RecordData) (c : AuthorityClaim) (r : PublishOutcome) (h : g.store.rejection d c = some r) :
      Steps f g (.evaluate d c) g (.handling f (.countRejected r.error))
  | admitted (d : RecordData) (c : AuthorityClaim) (h : g.store.rejection d c = none) :
      Steps f g (.evaluate d c) g (.handling f (.insert d))
  | inserted (d : RecordData) (r : PublishOutcome) (s : ProvenanceStore)
      (h : g.store.publishValidated d = (.ok r, s)) (hok : r.ok = true) :
      Steps f g (.insert d) { g with store := s } (.handling f .countAccepted)
  | notInserted (d : RecordData) (r : PublishOutcome) (s : ProvenanceStore)
      (h : g.store.publishValidated d = (.ok r, s)) (hok : r.ok = false) :
      Steps f g (.insert d) { g with store := s } (.handling f (.countRejected r.error))
  | countedAccepted : Steps f g .countAccepted { g with accepted := g.accepted + 1 } (.handling f (.respond "ok"))
  | countedRejected (error : String) : Steps f g (.countRejected error) { g with rejected := g.rejected + 1 }
      (.handling f (.respond ("err:" ++ error)))
  | malformed : Steps f g .malformed g (.handling f .countMalformed)
  | countedMalformed : Steps f g .countMalformed { g with rejected := g.rejected + 1 } .checking
  | rolled : Steps f g .rollEpoch { g with store := g.store.applyAuthority .rollEpoch }
      (.handling f (.respond ("epoch=" ++ toString (g.store.applyAuthority .rollEpoch).authority.epoch.toNat)))
  | authoritySet : Steps f g (.setAuthority []) g (.handling f (.respond "ok"))
  | settingAuthority (op : AuthorityOp) (ops : List AuthorityOp) : Steps f g (.setAuthority (op :: ops))
      { g with store := g.store.applyAuthority op } (.handling f (.setAuthority ops))
  | snapshotted : Steps f g .snapshot g (.handling f (.saveFile g.store.snapshot))
  | saved (snap : StoreSnapshot) : Steps f g (.saveFile snap) g
      (.handling f (.respond ("saved;digest=" ++ storeDigest snap)))
  | notSaved (snap : StoreSnapshot) (o : CallOutcomes) (e : String)
      (h : (StateProvenance.saveFile snap (textOf f.payload) o).1 = .ok (some e)) :
      Steps f g (.saveFile snap) g (.handling f (.respond ("err:" ++ e)))
  | absent (sid : StateId) (h : g.store.find sid = none) :
      Steps f g (.find sid) g (.handling f (.respond "absent"))
  | found (sid : StateId) (rec : ProvenanceRecord) (h : g.store.find sid = some rec) :
      Steps f g (.find sid) g (.handling f (.validityOf sid rec))
  | validated (sid : StateId) (rec : ProvenanceRecord) : Steps f g (.validityOf sid rec) g
      (.handling f (.size sid rec (g.store.validityOf sid)))
  | presented (sid : StateId) (rec : ProvenanceRecord) (v : EnumValue ValidityState) :
      Steps f g (.size sid rec v) g (.handling f (.respond (presentText rec v g.store.size)))
  | statsRead (args args' : StatsArgs) : Steps f g (.stats args) g (.handling f (.stats args'))
  | statsPrinted (args args' : StatsArgs) (text : String) (h : args'.text = some text) :
      Steps f g (.stats args) g (.handling f (.respond text))
  | responded (text : String) : Steps f g (.respond text) g .checking
  | bye : Steps f g .bye g (.handling f .stop)
  | stopped : Steps f g .stop { g with stopping := true } .closed

lemma Task.steps {f : Frame} {task : Task} {o : CallOutcomes} {arg : StatsArg} {g g' : Globals} {th : Thread}
    (hstep : task.step f o arg g = .ok (g', th)) : Task.Steps f g task g' th := by
  cases task with
  | evaluate d c =>
    rw [Task.step] at hstep
    split at hstep
    · next r hr =>
      cases hstep
      exact .refused d c r hr
    · next hr =>
      cases hstep
      exact .admitted d c hr
  | insert d =>
    rw [Task.step] at hstep
    split at hstep
    · contradiction
    · next r s hp =>
      cases hok : r.ok with
      | true =>
        rw [hok] at hstep
        cases hstep
        exact .inserted d r s hp hok
      | false =>
        rw [hok] at hstep
        cases hstep
        exact .notInserted d r s hp hok
  | setAuthority ops =>
    cases ops with
    | nil =>
      cases hstep
      exact .authoritySet
    | cons op ops =>
      cases hstep
      exact .settingAuthority op ops
  | saveFile snap =>
    rw [Task.step] at hstep
    split at hstep
    · contradiction
    · next e he =>
      cases hstep
      exact .notSaved snap o e he
    · cases hstep
      exact .saved snap
  | find sid =>
    rw [Task.step] at hstep
    split at hstep
    · next hfind =>
      cases hstep
      exact .absent sid hfind
    · next rec hfind =>
      cases hstep
      exact .found sid rec hfind
  | stats args =>
    simp only [Task.step] at hstep
    split at hstep
    · cases hstep
      exact .statsRead args _
    · next text ht =>
      cases hstep
      exact .statsPrinted args _ text ht
  | _ =>
    cases hstep
    constructor

def Task.Ready (s : ProvenanceStore) : Task → Prop
  | .evaluate d _ | .insert d => Readable d
  | .saveFile snap => StringsFit snap
  | .validityOf sid rec => s.find sid = some rec
  | .size sid rec v => s.find sid = some rec ∧ s.validityOf sid = v
  | _ => True

def Thread.Ready (s : ProvenanceStore) : Thread → Prop
  | .handling _ task => task.Ready s
  | _ => True

structure Service.Sound (t : Service) : Prop where
  running : t.failure = none
  store : t.globals.store.Savable
  threads : ∀ i, (t.conns i).thread.Ready t.globals.store

lemma Task.ready_start (s : ProvenanceStore) (f : Frame) : (Task.start f).Ready s := by
  have hstart := Task.starts f
  generalize Task.start f = task at hstart ⊢
  cases hstart with
  | publish d c hop hd => exact (encode_of_decodePublishPayload hd).1
  | _ => trivial

lemma Thread.Ready.grows {s s' : ProvenanceStore} (h : s.Grows s') {th : Thread} (hth : th.Ready s) :
    th.Ready s' := by
  cases th with
  | handling f task =>
    cases task with
    | validityOf sid rec => exact h.find hth
    | size sid rec v => exact ⟨h.find hth.1, (h.validityOf hth.1).trans hth.2⟩
    | evaluate d c => exact hth
    | insert d => exact hth
    | saveFile snap => exact hth
    | _ => trivial
  | _ => trivial

lemma saveFile_ok {snap : StoreSnapshot} (h : StringsFit snap) (path : String) (o : CallOutcomes) :
    ∃ r, (saveFile snap path o).1 = .ok r := by
  obtain ⟨payload, hp⟩ := (emits_snapshotChunks_iff snap).mpr h
  obtain ⟨image, himage⟩ := fileImage_eq_ok hp
  have hcalls := @saveFile_calls snap o path
  generalize saveFile snap path o = calls at hcalls ⊢
  cases hcalls with
  | threw e hthrew => rw [himage] at hthrew; contradiction
  | notOpened e => exact ⟨_, rfl⟩
  | notReplaced e => exact ⟨_, rfl⟩
  | replaced => exact ⟨_, rfl⟩

section Step

variable (f : Frame) (o : CallOutcomes) (arg : StatsArg) {g : Globals} (hs : g.store.Savable)

include hs

lemma Task.step_insert {d : RecordData} (hd : Readable d) : ∃ s r, g.store.Grows s ∧
    g.store.publishValidated d = (.ok r, s) ∧ (Task.insert d).step f o arg g = .ok ({ g with store := s },
      .handling f (if r.ok then .countAccepted else .countRejected r.error)) := by
  have hstep := publishValidated_step hs.toCore d
  rcases hp : g.store.publishValidated d with ⟨r, s⟩
  rw [hp] at hstep
  cases hstep with
  | rejected error => exact ⟨_, _, .same, rfl, by rw [Task.step, hp]⟩
  | accepted graph hv hi hg => exact ⟨_, _, .insert d graph hd hi hg, rfl, by rw [Task.step, hp]⟩

lemma Task.step_ready {task : Task} (hr : task.Ready g.store) : ∃ g' th, task.step f o arg g = .ok (g', th) ∧
    g.store.Grows g'.store ∧ th.Ready g'.store := by
  cases task with
  | registerBoot wid bid => exact ⟨_, _, rfl, .authority _, trivial⟩
  | evaluate d c =>
    rw [Task.step]
    cases g.store.rejection d c with
    | some r => exact ⟨_, _, rfl, .same, trivial⟩
    | none => exact ⟨_, _, rfl, .same, hr⟩
  | insert d =>
    obtain ⟨s, r, hgrows, -, hstep⟩ := Task.step_insert f o arg hs hr
    refine ⟨_, _, hstep, hgrows, ?_⟩
    split <;> trivial
  | rollEpoch => exact ⟨_, _, rfl, .authority .rollEpoch, trivial⟩
  | setAuthority ops =>
    cases ops with
    | nil => exact ⟨_, _, rfl, .same, trivial⟩
    | cons op ops => exact ⟨_, _, rfl, .authority op, trivial⟩
  | snapshot => exact ⟨_, _, rfl, .same, hs.strings⟩
  | saveFile snap =>
    obtain ⟨r, hsave⟩ := saveFile_ok hr (textOf f.payload) o
    rw [Task.step, hsave]
    cases r with
    | none => exact ⟨_, _, rfl, .same, trivial⟩
    | some e => exact ⟨_, _, rfl, .same, trivial⟩
  | find sid =>
    rw [Task.step]
    cases hfind : g.store.find sid with
    | none => exact ⟨_, _, rfl, .same, trivial⟩
    | some rec => exact ⟨_, _, rfl, .same, hfind⟩
  | validityOf sid rec => exact ⟨_, _, rfl, .same, hr, rfl⟩
  | stats args =>
    simp only [Task.step]
    cases (args.read g arg).text with
    | none => exact ⟨_, _, rfl, .same, trivial⟩
    | some text => exact ⟨_, _, rfl, .same, trivial⟩
  | _ => exact ⟨_, _, rfl, .same, trivial⟩

end Step

namespace Service

lemma forall_setConn {P : Connection → Prop} {t : Service} (h : ∀ j, P (t.conns j)) (i : ℕ) {c : Connection}
    (hc : P c) (j : ℕ) : P ((t.setConn i c).conns j) := by
  by_cases hj : j = i
  · subst hj
    simpa [setConn] using hc
  · simpa [setConn, Function.update_of_ne hj] using h j

lemma Sound.setConn {t : Service} (h : t.Sound) (i : ℕ) {c : Connection} (hc : c.thread.Ready t.globals.store) :
    (t.setConn i c).Sound :=
  ⟨h.running, h.store, forall_setConn (P := fun c => c.thread.Ready t.globals.store) h.threads i hc⟩

lemma conns_step_of_ne (t : Service) {e : ServiceEvent} {i : ℕ} (hi : i ≠ e.conn) :
    (t.step e).conns i = t.conns i := by
  have hset : ∀ (t' : Service) c, (t'.setConn e.conn c).conns i = t'.conns i := fun t' c =>
    Function.update_of_ne hi _ _
  cases e with
  | arrive j bytes => exact hset t _
  | act j o arg =>
    rw [Service.step, Service.act]
    split
    · rfl
    · simp only
      split
      · exact hset t _
      · split
        · rfl
        · exact hset t _
      · split
        · rfl
        · exact hset _ _
      · rfl

lemma thread_arrive (t : Service) (j : ℕ) (bytes : ByteString) (i : ℕ) :
    ((t.step (.arrive j bytes)).conns i).thread = (t.conns i).thread := by
  by_cases hi : i = j
  · subst hi
    simp [Service.step, setConn]
  · rw [conns_step_of_ne t hi]

lemma conns_run_of_ne (t : Service) {es : List ServiceEvent} {i : ℕ} (hi : ∀ e ∈ es, i ≠ e.conn) :
    (run Service.step t es).conns i = t.conns i := by
  induction es generalizing t with
  | nil => rfl
  | cons e es ih =>
    rw [run_cons, ih _ fun x hx => hi x (List.mem_cons_of_mem e hx), conns_step_of_ne t (hi e List.mem_cons_self)]

lemma answered_eq {t : Service} {e : ServiceEvent} {i : ℕ} {f : Frame} {text : String}
    (ha : t.traffic e = some (.answered i f text)) : ∃ o arg task, e = .act i o arg ∧
      (t.conns i).thread = .handling f task ∧ task.sent = some text := by
  cases e with
  | arrive j bytes => contradiction
  | act j o arg =>
    rw [traffic] at ha
    split at ha
    · contradiction
    · split at ha
      · obtain ⟨x, -, hx⟩ := Option.map_eq_some_iff.mp ha
        contradiction
      · next f' task hthread =>
        obtain ⟨text', hsent, htraffic⟩ := Option.map_eq_some_iff.mp ha
        obtain ⟨rfl, rfl, rfl⟩ := Traffic.answered.inj htraffic
        exact ⟨o, arg, task, rfl, hthread, hsent⟩
      · contradiction

inductive Acts (t : Service) (i : ℕ) (o : CallOutcomes) (arg : StatsArg) : Service → Option Traffic → Prop
  | idle (hold : (t.conns i).thread = .receiving ∨ (t.conns i).thread = .closed) : Acts t i o arg t none
  | checked (thread : Thread) (h : thread = .closed ∨ thread = .receiving ∧ t.globals.stopping = false)
      (hold : (t.conns i).thread = .checking) : Acts t i o arg (t.setConn i { t.conns i with thread }) none
  | received (f : Frame) (rest : ByteString) (hf : recvFrame (t.conns i).inbox = some (f, rest))
      (hold : (t.conns i).thread = .receiving) :
      Acts t i o arg (t.setConn i { t.conns i with inbox := rest, thread := .handling f (.start f) })
        (some (.received i f))
  | handled (f : Frame) (task : Task) (globals : Globals) (thread : Thread)
      (hold : (t.conns i).thread = .handling f task) (hstep : task.step f o arg t.globals = .ok (globals, thread))
      (hgrows : t.globals.store.Grows globals.store) (hready : thread.Ready globals.store) :
      Acts t i o arg ({ t with globals }.setConn i { (t.conns i).send task.sent with thread })
        (task.sent.map (.answered i f))

lemma Sound.act {t : Service} (h : t.Sound) (i : ℕ) (o : CallOutcomes) (arg : StatsArg) :
    t.Acts i o arg (t.step (.act i o arg)) (t.traffic (.act i o arg)) := by
  rw [Service.step, traffic, h.running, Service.act]
  simp only [Option.isSome_none, Bool.false_eq_true, if_false]
  cases hold : (t.conns i).thread with
  | checking =>
    simp only
    split
    · exact .checked _ (.inl rfl) hold
    · next hrun => exact .checked _ (.inr ⟨rfl, Bool.not_eq_true _ ▸ hrun⟩) hold
  | receiving =>
    cases hf : recvFrame (t.conns i).inbox with
    | none => exact .idle (.inl hold)
    | some x => exact .received x.1 x.2 hf hold
  | handling f task =>
    have hready := h.threads i
    rw [hold] at hready
    obtain ⟨g', th, hok, hgrows, hth⟩ := Task.step_ready f o arg h.store hready
    simp only [hok]
    exact .handled f task g' th hold hok hgrows hth
  | closed => exact .idle (.inr hold)

lemma Sound.step {t : Service} (h : t.Sound) (e : ServiceEvent) : (t.step e).Sound := by
  cases e with
  | arrive i bytes => exact h.setConn i (h.threads i)
  | act i o arg =>
    have hacts := h.act i o arg
    generalize t.step (.act i o arg) = t', t.traffic (.act i o arg) = seen at hacts
    cases hacts with
    | idle => exact h
    | checked thread hthread hold =>
      refine h.setConn i ?_
      rcases hthread with rfl | ⟨rfl, -⟩ <;> trivial
    | received f rest hf hold => exact h.setConn i (Task.ready_start _ f)
    | handled f task globals thread hold hstep hgrows hready =>
      have hglobals : ({ t with globals } : Service).Sound :=
        ⟨h.running, hgrows.savable h.store, fun j => (h.threads j).grows hgrows⟩
      exact hglobals.setConn i hready

lemma Sound.run {t : Service} (h : t.Sound) (es : List ServiceEvent) : (run Service.step t es).Sound :=
  run_keeps (fun _ e h => h.step e) h es

end Service

lemma decodeSnapshot_stringsFit {bytes : ByteString} {s : StoreSnapshot} (h : decodeSnapshot bytes = .ok s) :
    StringsFit s := by
  obtain ⟨l, rfl, -, hemit, -⟩ := decodeSnapshot_eq_ok h
  have hchunks : Emits l.chunks := ⟨bytes, hemit⟩
  simp only [Listing.chunks, emits_cons, emits_append, emits_flatMap] at hchunks
  refine ⟨fun rec hr => (emits_writeRecord_iff rec.d).mp (hchunks.2.2.2.1 rec hr), fun e he => ?_⟩
  have hlisted : (fill Prod.fst Prod.snd l.status)[e.1]? = some e.2 :=
    ExtTreeMap.mem_toList_iff_getElem?_eq_some.mp he
  obtain ⟨a, ha, -, hvalue⟩ := exists_of_fill Prod.fst Prod.snd hlisted
  have hstatus := hchunks.2.2.2.2.2.1 a ha
  simp only [statusChunks, emits_cons, str_eq_ok_iff] at hstatus
  rw [← hvalue]
  exact hstatus.2.2.2.2.1

lemma restored_of_loadStore {bytes : ByteString} {s : ProvenanceStore} (h : loadStore bytes = some s) :
    ∃ snap, decodeSnapshot (bytes.drop 28) = .ok snap ∧ ({} : ProvenanceStore).Restored snap s := by
  rw [loadStore] at h
  cases hsnap : (loadFile bytes).snapshot with
  | none => simp [hsnap] at h
  | some snap =>
    obtain ⟨_, _, _, -, -, -, -, hd⟩ := (loadFile_eq_some_iff bytes snap).mp hsnap
    have hl := decodeSnapshot_loadable hd
    by_cases ho : Orderable snap.records
    · obtain ⟨r, hrun, hr⟩ := ({} : ProvenanceStore).restore_restored hl ho
      simp only [hsnap, hrun] at h
      obtain rfl := Option.some.inj h
      exact ⟨snap, hd, hr⟩
    · simp [hsnap, restore_refused _ hl.distinct ho] at h

lemma savable_startStore {load : Option ByteString} {s : ProvenanceStore} (h : startStore load = some s) :
    s.Savable := by
  cases load with
  | none =>
    obtain rfl := Option.some.inj h
    refine ⟨live_empty.toCore, (stringsFit_snapshot_iff _).mpr ⟨fun x rec hx => ?_, fun x st hx => ?_⟩⟩
    · simp at hx
    · simp at hx
  | some bytes =>
    obtain ⟨snap, hd, hr⟩ := restored_of_loadStore h
    have hfit := decodeSnapshot_stringsFit hd
    refine ⟨hr.core, (stringsFit_snapshot_iff _).mpr ⟨fun x rec hx => ?_, fun x st hx => ?_⟩⟩
    · exact hfit.records rec (hr.fromSnapshot x rec hx)
    · rw [hr.status] at hx
      exact hfit.details (x, st) (ExtTreeMap.mem_toList_iff_getElem?_eq_some.mpr hx)

namespace Service

lemma sound_start {s : ProvenanceStore} (h : s.Savable) : (start s).Sound := ⟨rfl, h, fun _ => trivial⟩

theorem never_throws {load : Option ByteString} {s : ProvenanceStore} (h : startStore load = some s)
    (es : List ServiceEvent) : (run step (start s) es).failure = none ∧
      (run step (start s) es).globals.store.Core ∧
      ∃ bytes, fileImage (run step (start s) es).globals.store.snapshot = .ok bytes :=
  have hsound := (sound_start (savable_startStore h)).run es
  ⟨hsound.running, hsound.store.toCore, hsound.store.fileImage⟩

def callsDone : CallOutcomes := ⟨true, true, [], 4096, true, true, true⟩

def exchange (i : ℕ) (f : Frame) (n : ℕ) : List ServiceEvent :=
  .arrive i (wire f) :: List.replicate n (.act i callsDone .size)

theorem malformed_publish_survived :
    (run step (start {}) (exchange 0 ⟨Op.publish.code, [1, 2, 3]⟩ 4)).failure = none :=
  (@never_throws none {} rfl _).1

end Service

end StateProvenance
