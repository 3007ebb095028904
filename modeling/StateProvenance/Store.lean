import StateProvenance.Authority
import StateProvenance.Compat
import StateProvenance.Invalidate

/-! The provenance store: records, derivation graph, status overlay, authority and indexes, and the
operations on them. Each operation is one lock-protected section. -/

namespace StateProvenance

open Std Library.OrderedMap Library Digest

structure PublishOutcome where
  ok : Bool := false
  error : String := ""
  record : Option ProvenanceRecord := none

structure InvalidationOutcome where
  ok : Bool := false
  error : String := ""
  result : InvalidationResult := {}

@[ext] structure RecordStatus where
  validity : EnumValue ValidityState := .named .valid
  reason : EnumValue InvalidationReason := .named .unknown
  provenanceGeneration : ProvenanceGeneration := {}
  detail : ByteString := []
deriving DecidableEq

@[ext] structure AuthoritySnapshot where
  epoch : UInt64 := 1
  boots : OrdMap WorkerId WorkerBootId := ∅
  attemptId : AttemptId := {}
  attemptGeneration : AttemptGeneration := {}
  stateGeneration : StateGeneration := {}
  provenanceGeneration : ProvenanceGeneration := {}
  artifactGeneration : ArtifactGeneration := {}
  modelGeneration : ModelGeneration := {}
  adapterGeneration : AdapterGeneration := {}
  compositionGeneration : CompositionGeneration := {}
  policyGeneration : PolicyGeneration := {}
  dependencyGeneration : DependencyGeneration := {}

@[ext] structure StoreSnapshot where
  records : List ProvenanceRecord := []
  status : OrdMap StateId RecordStatus := ∅
  authority : AuthoritySnapshot := {}

@[ext] structure Indexes where
  byModel : OrdMap ModelId (OrdSet StateId) := ∅
  byAdapter : OrdMap AdapterId (OrdSet StateId) := ∅
  byProducer : OrdMap ProducerId (OrdSet StateId) := ∅
  byExecution : OrdMap ExecutionId (OrdSet StateId) := ∅
  byAttempt : OrdMap AttemptId (OrdSet StateId) := ∅
  byDependency : OrdMap DependencyId (OrdSet StateId) := ∅
  byArtifact : OrdMap ArtifactGeneration (OrdSet StateId) := ∅
  byValidity : OrdMap (EnumValue ValidityState) (OrdSet StateId) := ∅
  byEvidence : OrdMap (EnumValue EvidenceClass) (OrdSet StateId) := ∅

@[ext] structure ProvenanceStore where
  records : OrdMap StateId ProvenanceRecord := ∅
  provToState : OrdMap ProvenanceId StateId := ∅
  graph : ProvenanceGraph := {}
  status : OrdMap StateId RecordStatus := ∅
  authority : AuthorityState := {}
  workers : OrdSet WorkerId := ∅
  runtimeGeneration : RuntimeGeneration := {}
  indexes : Indexes := {}

def indexId {Tag : Type} (m : OrdMap (ScalarIdentifier Tag) (OrdSet StateId)) (id : ScalarIdentifier Tag)
    (sid : StateId) : OrdMap (ScalarIdentifier Tag) (OrdSet StateId) :=
  if id.valid then addTo m id sid else m

def indexInsert (ix : Indexes) (d : RecordData) (sid : StateId) : Indexes where
  byModel := indexId ix.byModel d.modelId sid
  byAdapter := indexId ix.byAdapter d.adapterId sid
  byProducer := indexId ix.byProducer d.producerId sid
  byExecution := indexId ix.byExecution d.executionId sid
  byAttempt := indexId ix.byAttempt d.attemptId sid
  byDependency := d.dependencies.foldl (fun m dep => indexId m dep.id sid) ix.byDependency
  byArtifact := indexId ix.byArtifact d.artifactGeneration sid
  byValidity := addTo ix.byValidity d.validity sid
  byEvidence := addTo ix.byEvidence d.evidence sid

def addParents (child : StateId) : List StateId → ProvenanceGraph → Except String Unit × ProvenanceGraph
  -- The insertion loop of arcs into `child`; a rejected arc keeps those before it.
  | [], g => (.ok (), g)
  | parent :: rest, g =>
    match g.addArc parent child with
    | (.error e, g) => (.error ("graph rejection: " ++ e.what), g)
    | (.ok _, g) => addParents child rest g

namespace ProvenanceStore

def danglingInput (s : ProvenanceStore) (data : RecordData) : Option String :=
  data.inputStates.findSome? fun x =>
    if x ∈ s.records then none
    else some ("dangling input_state " ++ x.toText ++ " (parents must exist)")

def danglingParent (s : ProvenanceStore) (data : RecordData) : Option String :=
  data.parentProvenance.findSome? fun p =>
    if p ∈ s.provToState then none else some ("dangling parent_provenance " ++ p.toText)

def parentSet (s : ProvenanceStore) (data : RecordData) : OrdSet StateId :=
  let ps := data.inputStates.foldl (fun ps x => ps.insert x) ∅
  data.parentProvenance.foldl (fun ps p => ps.insert (s.provToState.getD p {})) ps

def commit (s : ProvenanceStore) (data : RecordData) (g : ProvenanceGraph) : ProvenanceStore :=
  { s with
    graph := g
    indexes := indexInsert s.indexes data data.subjectId
    records := s.records.insert data.subjectId ⟨data⟩
    provToState := s.provToState.insert data.provenanceId data.subjectId
    status := s.status.insert data.subjectId
      ⟨data.validity, data.invalidationReason, data.provenanceGeneration, data.note⟩
    workers := if data.workerId.valid then s.workers.insert data.workerId else s.workers }

def insertValidated (s : ProvenanceStore) (data : RecordData) :
    Except GraphError PublishOutcome × ProvenanceStore :=
  if data.subjectId ∈ s.records then
    (.ok { error := "duplicate StateId " ++ data.subjectId.toText }, s)
  else if data.provenanceId ∈ s.provToState then
    (.ok { error := "duplicate ProvenanceId " ++ data.provenanceId.toText }, s)
  else
    match s.danglingInput data with
    | some error => (.ok { error }, s)
    | none =>
      match s.danglingParent data with
      | some error => (.ok { error }, s)
      | none =>
        match s.graph.addNode data.subjectId with
        | (.error e, g) => (.error e, { s with graph := g })
        | (.ok _, g) =>
          match addParents data.subjectId (s.parentSet data).toList g with
          | (.error error, g) => (.ok { error }, { s with graph := g })
          | (.ok _, g) => (.ok { ok := true, record := some ⟨data⟩ }, s.commit data g)

def publishValidated (s : ProvenanceStore) (data : RecordData) :
    Except GraphError PublishOutcome × ProvenanceStore :=
  match validateRecord data with
  | some error => (.ok { error }, s)
  | none => s.insertValidated data

def publish (s : ProvenanceStore) (data : RecordData) : Except GraphError PublishOutcome × ProvenanceStore :=
  s.publishValidated data

def rejection (s : ProvenanceStore) (data : RecordData) (claim : AuthorityClaim) : Option PublishOutcome :=
  match validateRecord data with
  | some error => some { error }
  | none =>
    let fv := s.authority.evaluateClaim claim
    if !fv.accepted then some { error := "stale authority [" ++ fv.dimension ++ "]: " ++ fv.detail }
    else none

def publishFenced (s : ProvenanceStore) (data : RecordData) (claim : AuthorityClaim) :
    Except GraphError PublishOutcome × ProvenanceStore :=
  match s.rejection data claim with
  | some outcome => (.ok outcome, s)
  | none => s.publishValidated data

end ProvenanceStore

inductive AuthorityOp
  | rollEpoch
  | registerBoot (w : WorkerId) (b : WorkerBootId)
  | beginAttempt (id : AttemptId) (g : AttemptGeneration)
  | rollStateGeneration (g : StateGeneration)
  | rollProvenanceGeneration (g : ProvenanceGeneration)
  | setModelGeneration (g : ModelGeneration)
  | setAdapterGeneration (g : AdapterGeneration)
  | setCompositionGeneration (g : CompositionGeneration)
  | setPolicyGeneration (g : PolicyGeneration)
  | setDependencyGeneration (g : DependencyGeneration)
  | setArtifactGeneration (g : ArtifactGeneration)
  | setRuntimeGeneration (g : RuntimeGeneration)
deriving DecidableEq

def AuthorityState.apply (a : AuthorityState) : AuthorityOp → AuthorityState
  | .rollEpoch => a.rollEpoch
  | .registerBoot w b => a.registerBoot w b
  | .beginAttempt id g => a.beginAttempt id g
  | .rollStateGeneration g => { a with stateGeneration := g }
  | .rollProvenanceGeneration g => { a with provenanceGeneration := g }
  | .setModelGeneration g => { a with modelGeneration := g }
  | .setAdapterGeneration g => { a with adapterGeneration := g }
  | .setCompositionGeneration g => { a with compositionGeneration := g }
  | .setPolicyGeneration g => { a with policyGeneration := g }
  | .setDependencyGeneration g => { a with dependencyGeneration := g }
  | .setArtifactGeneration g => { a with artifactGeneration := g }
  | .setRuntimeGeneration _ => a

def AuthorityState.listBoot (a : AuthorityState) (boots : OrdMap WorkerId WorkerBootId) (w : WorkerId) :
    OrdMap WorkerId WorkerBootId :=
  match a.bootOf w with
  | some b => boots.insert w b
  | none => boots

namespace ProvenanceStore

def applyAuthority (s : ProvenanceStore) (op : AuthorityOp) : ProvenanceStore :=
  { s with
    authority := s.authority.apply op
    runtimeGeneration := match op with
      | .setRuntimeGeneration g => g
      | _ => s.runtimeGeneration }

def evaluateClaim (s : ProvenanceStore) (claim : AuthorityClaim) : FenceVerdict :=
  s.authority.evaluateClaim claim

def authoritySnapshot (s : ProvenanceStore) : AuthoritySnapshot where
  epoch := s.authority.epoch
  attemptId := s.authority.attemptId
  attemptGeneration := s.authority.attemptGeneration
  stateGeneration := s.authority.stateGeneration
  provenanceGeneration := s.authority.provenanceGeneration
  artifactGeneration := s.authority.artifactGeneration
  modelGeneration := s.authority.modelGeneration
  adapterGeneration := s.authority.adapterGeneration
  compositionGeneration := s.authority.compositionGeneration
  policyGeneration := s.authority.policyGeneration
  dependencyGeneration := s.authority.dependencyGeneration
  boots := s.workers.toList.foldl s.authority.listBoot ∅

def size (s : ProvenanceStore) : ℕ := s.records.size

def find (s : ProvenanceStore) (id : StateId) : Option ProvenanceRecord := s.records[id]?

def findByProvenance (s : ProvenanceStore) (pid : ProvenanceId) : Option ProvenanceRecord :=
  match s.provToState[pid]? with
  | none => none
  | some id => s.records[id]?

def ids (s : ProvenanceStore) : List StateId := s.records.keys

def indexQuery {K : Type} [Ord K] [TransOrd K] (m : OrdMap K (OrdSet StateId)) (key : K) : List StateId :=
  (m.getD key ∅).toList

def byModel (s : ProvenanceStore) (id : ModelId) : List StateId := indexQuery s.indexes.byModel id
def byAdapter (s : ProvenanceStore) (id : AdapterId) : List StateId := indexQuery s.indexes.byAdapter id
def byProducer (s : ProvenanceStore) (id : ProducerId) : List StateId := indexQuery s.indexes.byProducer id
def byExecution (s : ProvenanceStore) (id : ExecutionId) : List StateId :=
  indexQuery s.indexes.byExecution id
def byAttempt (s : ProvenanceStore) (id : AttemptId) : List StateId := indexQuery s.indexes.byAttempt id
def byDependency (s : ProvenanceStore) (id : DependencyId) : List StateId :=
  indexQuery s.indexes.byDependency id
def byArtifactGeneration (s : ProvenanceStore) (g : ArtifactGeneration) : List StateId :=
  indexQuery s.indexes.byArtifact g
def byValidity (s : ProvenanceStore) (v : EnumValue ValidityState) : List StateId :=
  indexQuery s.indexes.byValidity v
def byEvidence (s : ProvenanceStore) (v : EnumValue EvidenceClass) : List StateId :=
  indexQuery s.indexes.byEvidence v

def ancestors (s : ProvenanceStore) (id : StateId) : List StateId := s.graph.ancestors id
def descendants (s : ProvenanceStore) (id : StateId) : List StateId := s.graph.descendants id
def parents (s : ProvenanceStore) (id : StateId) : List StateId := s.graph.parents id
def children (s : ProvenanceStore) (id : StateId) : List StateId := s.graph.children id
def roots (s : ProvenanceStore) : List StateId := s.graph.roots
def topologicalOrder (s : ProvenanceStore) : Except GraphError (List StateId) := s.graph.topologicalOrder

def validityOf (s : ProvenanceStore) (id : StateId) : EnumValue ValidityState :=
  match s.status[id]? with
  | none => .named .unknown
  | some st => st.validity

def statusDecision (st : RecordStatus) : Option ReuseDecision :=
  if st.validity = .named .invalidated then
    some { eligibility := .invalidated, reasons := ["subject has been invalidated"] }
  else if st.validity = .named .stale then
    some { eligibility := .stale, reasons := ["subject is stale"] }
  else if st.validity = .named .unknown then
    some { eligibility := .unknown, reasons := ["subject validity is unknown"] }
  else none

def anyStatus (s : ProvenanceStore) (anc : List StateId) (v : ValidityState) : Bool :=
  anc.any fun a =>
    match s.status[a]? with
    | none => false
    | some st => st.validity = .named v

def escalate (s : ProvenanceStore) (anc : List StateId) (d : ReuseDecision) : ReuseDecision :=
  if s.anyStatus anc .invalidated then
    { eligibility := .invalidated, reasons := ["an ancestor of this subject has been invalidated"] }
  else if s.anyStatus anc .stale && d.eligibility ≠ .invalidated then
    { eligibility := .stale, reasons := ["an ancestor of this subject is stale"] }
  else d

def checkReuse (s : ProvenanceStore) (id : StateId) (req : ReuseRequest) : ReuseDecision :=
  match s.records[id]? with
  | none =>
    { eligibility := .unknown, reasons := ["no provenance record for subject " ++ id.toText] }
  | some rec =>
    match (s.status[id]?).bind statusDecision with
    | some d => d
    | none => s.escalate (s.graph.ancestors id) (evaluateReuse rec req)

def invalidatedStatus (subj : InvalidatingSubject) (res : InvalidationResult) (affected : StateId)
    (st : RecordStatus) : RecordStatus :=
  let root := res.rootOf.getD affected affected
  { st with
    validity := .named .invalidated
    reason := res.rootReason.getD root subj.reason
    detail :=
      if affected = subj.subject then
        if subj.detail.isEmpty then ByteString.ofText "invalidated by operator" else subj.detail
      else ByteString.ofText ("invalidated because it transitively depends on " ++ root.toText) }

def invalidateOne (subj : InvalidatingSubject) (res : InvalidationResult) (s : ProvenanceStore)
    (affected : StateId) : ProvenanceStore :=
  let st := s.status.getD affected {}
  let oldv := st.validity
  { s with
    status := s.status.insert affected (invalidatedStatus subj res affected st)
    indexes :=
      if oldv ≠ .named .invalidated then
        { s.indexes with
          byValidity := addTo (removeFrom s.indexes.byValidity oldv affected) (.named .invalidated) affected }
      else s.indexes }

def invalidate (s : ProvenanceStore) (subj : InvalidatingSubject) : InvalidationOutcome × ProvenanceStore :=
  if subj.subject ∉ s.records then
    ({ error := "invalidating unknown subject " ++ subj.subject.toText }, s)
  else
    let res := propagateInvalidation s.graph [subj]
    ({ ok := true, result := res }, res.affected.foldl (invalidateOne subj res) s)

def snapshot (s : ProvenanceStore) : StoreSnapshot where
  records := s.records.toList.map Prod.snd
  status := s.status
  authority := s.authoritySnapshot

end ProvenanceStore

def provMap (records : List ProvenanceRecord) : OrdMap ProvenanceId StateId :=
  fill (fun rec => rec.d.provenanceId) (fun rec => rec.d.subjectId) records

def insertResolved (provs : OrdMap ProvenanceId StateId) (ps : OrdSet StateId) (p : ProvenanceId) :
    OrdSet StateId :=
  -- An unresolvable `parent_provenance` entry is skipped.
  match provs[p]? with
  | some x => ps.insert x
  | none => ps

def recordParents (provs : OrdMap ProvenanceId StateId) (d : RecordData) : OrdSet StateId :=
  d.parentProvenance.foldl (insertResolved provs) (d.inputStates.foldl (fun ps x => ps.insert x) ∅)

def parentsMap (records : List ProvenanceRecord) : OrdMap StateId (OrdSet StateId) :=
  fill (fun rec => rec.d.subjectId) (fun rec => recordParents (provMap records) rec.d) records

def inDegreeMap (records : List ProvenanceRecord) : OrdMap StateId ℕ :=
  fill (fun rec => rec.d.subjectId) (fun rec => (recordParents (provMap records) rec.d).size) records

def childrenOf (parents : OrdMap StateId (OrdSet StateId)) : OrdMap StateId (List StateId) :=
  parents.toList.foldl (fun m e =>
    e.2.toList.foldl (fun m p => m.insert p (m.getD p [] ++ [e.1])) m) ∅

def topoOrder (records : List ProvenanceRecord) : List StateId :=
  let children := childrenOf (parentsMap records)
  let inDeg := inDegreeMap records
  Kahn.kahn (fun p => children.getD p []) inDeg.size inDeg (Kahn.initialReady inDeg) []

def recordsById (records : List ProvenanceRecord) : OrdMap StateId ProvenanceRecord :=
  fill (fun rec => rec.d.subjectId) (fun rec => rec) records

def recordsInTopoOrder (s : StoreSnapshot) : List ProvenanceRecord :=
  let order := topoOrder s.records
  if order.length ≠ s.records.length then []
  else order.map fun id => (recordsById s.records).getD id ⟨{}⟩

def rebuildAuthority (a : AuthoritySnapshot) : AuthorityState :=
  let authority := { AuthorityState.setEpoch {} a.epoch with
    attemptId := a.attemptId
    attemptGeneration := a.attemptGeneration
    stateGeneration := a.stateGeneration
    provenanceGeneration := a.provenanceGeneration
    artifactGeneration := a.artifactGeneration
    modelGeneration := a.modelGeneration
    adapterGeneration := a.adapterGeneration
    compositionGeneration := a.compositionGeneration
    policyGeneration := a.policyGeneration
    dependencyGeneration := a.dependencyGeneration }
  a.boots.toList.foldl (fun authority e => authority.registerBoot e.1 e.2) authority

def rebuildWorkers (a : AuthoritySnapshot) : OrdSet WorkerId :=
  a.boots.toList.foldl (fun workers e => workers.insert e.1) ∅

namespace ProvenanceStore

def reinsert : List ProvenanceRecord → ProvenanceStore → Except String Unit × ProvenanceStore
  -- The verdicts of the insertions are ignored; only an exception ends the loop.
  | [], s => (.ok (), s)
  | rec :: rest, s =>
    match s.insertValidated rec.d with
    | (.error e, s) => (.error e.what, s)
    | (.ok _, s) => reinsert rest s

def overlay (s : ProvenanceStore) (status : OrdMap StateId RecordStatus) : ProvenanceStore :=
  let byValidity := status.toList.foldl (fun m e => addTo m e.2.validity e.1) ∅
  { s with
    status
    indexes := { s.indexes with
      byValidity := s.records.keys.foldl (fun m id =>
        if id ∈ status then m else addTo m (.named .valid) id) byValidity } }

def cleared (s : ProvenanceStore) (snap : StoreSnapshot) : ProvenanceStore where
  authority := rebuildAuthority snap.authority
  workers := rebuildWorkers snap.authority
  runtimeGeneration := s.runtimeGeneration

def restore (s : ProvenanceStore) (snap : StoreSnapshot) : Except String Unit × ProvenanceStore :=
  let s := s.cleared snap
  let order := recordsInTopoOrder snap
  if order.length ≠ snap.records.length then
    (.error "restore refused: persisted provenance graph contains a cycle", s)
  else
    match reinsert order s with
    | (.error e, s) => (.error e, s)
    | (.ok _, s) => (.ok (), s.overlay snap.status)

end ProvenanceStore

def storeDigest (s : StoreSnapshot) : String :=
  let sd : StableDigest := ⟨0x73746f7265⟩
  let sd := s.records.foldl (fun (sd : StableDigest) rec =>
    sd.withId rec.d.subjectId |>.withId rec.d.provenanceId
      |>.withString (ByteString.ofText rec.derivationDigest)) sd
  let sd := sd.withWord s.records.length.toUInt64
  let sd := s.status.toList.foldl (fun (sd : StableDigest) e =>
    sd.withId e.1 |>.withEnum e.2.validity |>.withString e.2.detail) sd
  (sd.withWord s.authority.epoch).str

end StateProvenance
