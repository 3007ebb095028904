import StateProvenance.Commands
import StateProvenance.InvalidationEffect
import StateProvenance.Recovery
import StateProvenance.RegisterOverwrite

/-! A series of commands prints what it would print if the stores were kept in memory, instead of saving each to its
file and loading it again. The files lie in one directory under one name each, and are read where they exist. -/

namespace StateProvenance.Spc

open Std Library.OrderedMap ProvenanceStore Explain Digest
open Cli (Args parseArgs arg freshStore recordFromArgs publishFromArgs)
open Library.Runs (Along answers answers_eq)

abbrev Shelf := ByteString → Option ProvenanceStore

def Shelf.read (w : Shelf) (path : ByteString) : Loaded :=
  match w path with
  | none => .error (bytesOf "cannot open for read: " ++ path)
  | some s => .ok (.ok s)

def Shelf.run (w : Shelf) (c : Call) : Except String Printed × Shelf :=
  match c.plan w.read with
  | .error e => (.error e, w)
  | .ok (.print p) => (.ok p, w)
  | .ok (.save s path finish) =>
    match (saveFile s.snapshot (textOf path) c.outcomes).1 with
    | .error e => (.error e, w)
    | .ok (some e) => (.ok (finish (some e)), w)
    | .ok none => (.ok (finish none), Function.update w path (some s))

/-! What a command can tell of a store. Its indexes and its set of workers are not among it. -/

def bare (s : ProvenanceStore) : ProvenanceStore := { s with indexes := {}, workers := ∅ }

def Plan.bare : Plan → Plan
  | .print p => .print p
  | .save s path finish => .save (Spc.bare s) path finish

@[simp] lemma bare_records (s : ProvenanceStore) : (bare s).records = s.records := rfl

@[simp] lemma bare_provToState (s : ProvenanceStore) : (bare s).provToState = s.provToState := rfl

@[simp] lemma bare_graph (s : ProvenanceStore) : (bare s).graph = s.graph := rfl

lemma insertValidated_bare (s : ProvenanceStore) (d : RecordData) :
    ((bare s).insertValidated d).1 = (s.insertValidated d).1 ∧
      bare ((bare s).insertValidated d).2 = bare (s.insertValidated d).2 := by
  have hinput : (bare s).danglingInput d = s.danglingInput d := rfl
  have hparent : (bare s).danglingParent d = s.danglingParent d := rfl
  have hset : (bare s).parentSet d = s.parentSet d := rfl
  rw [insertValidated, insertValidated, hinput, hparent, hset, bare_records, bare_provToState, bare_graph]
  split
  · exact ⟨rfl, rfl⟩
  split
  · exact ⟨rfl, rfl⟩
  cases s.danglingInput d with
  | some error => exact ⟨rfl, rfl⟩
  | none =>
    cases s.danglingParent d with
    | some error => exact ⟨rfl, rfl⟩
    | none =>
      dsimp only
      rcases s.graph.addNode d.subjectId with ⟨e | u, g⟩
      · exact ⟨rfl, rfl⟩
      · dsimp only
        rcases addParents d.subjectId (s.parentSet d).toList g with ⟨e | u, g'⟩
        · exact ⟨rfl, rfl⟩
        · exact ⟨rfl, rfl⟩

lemma publish_bare (s : ProvenanceStore) (d : RecordData) :
    ((bare s).publish d).1 = (s.publish d).1 ∧ bare ((bare s).publish d).2 = bare (s.publish d).2 := by
  rw [publish, publish, publishValidated, publishValidated]
  cases validateRecord d with
  | some error => exact ⟨rfl, rfl⟩
  | none => exact insertValidated_bare s d

lemma foldl_invalidateOne_bare (subj : InvalidatingSubject) (res : InvalidationResult) (l : List StateId)
    {s t : ProvenanceStore} (h : bare s = bare t) :
    bare (l.foldl (invalidateOne subj res) s) = bare (l.foldl (invalidateOne subj res) t) := by
  induction l generalizing s t with
  | nil => exact h
  | cons a l ih =>
    apply ih
    have hstatus : s.status = t.status := congrArg (fun s => s.status) h
    rw [invalidateOne, invalidateOne, hstatus]
    exact congrArg (fun b => { b with status := t.status.insert a (invalidatedStatus subj res a (t.status.getD a {})) }) h

lemma invalidate_bare (s : ProvenanceStore) (subj : InvalidatingSubject) :
    ((bare s).invalidate subj).1 = (s.invalidate subj).1 ∧
      bare ((bare s).invalidate subj).2 = bare (s.invalidate subj).2 := by
  rw [ProvenanceStore.invalidate, ProvenanceStore.invalidate, bare_records, bare_graph]
  split
  · exact ⟨rfl, rfl⟩
  · exact ⟨rfl, foldl_invalidateOne_bare subj _ _ rfl⟩

/-- A store to which no process has reported; its saved file loads. -/
structure Kept (s : ProvenanceStore) : Prop where
  core : s.Core
  named : Named s.snapshot
  authority : s.authority = freshStore.authority
  runtimeGeneration : s.runtimeGeneration = freshStore.runtimeGeneration

lemma named_snapshot_iff (s : ProvenanceStore) : Named s.snapshot ↔
    (∀ (x : StateId) rec, s.records[x]? = some rec → RecordNamed rec.d) ∧
      ∀ (x : StateId) st, s.status[x]? = some st → StatusNamed st := by
  constructor
  · intro h
    exact ⟨fun x rec hx => h.records rec ((mem_snapshot s rec).mpr ⟨x, hx⟩),
      fun x st hx => h.status (x, st) (ExtTreeMap.mem_toList_iff_getElem?_eq_some.mpr hx)⟩
  · rintro ⟨hrecords, hstatus⟩
    refine ⟨fun rec hr => ?_, fun e he => hstatus e.1 e.2 (ExtTreeMap.mem_toList_iff_getElem?_eq_some.mp he)⟩
    obtain ⟨x, hx⟩ := (mem_snapshot s rec).mp hr
    exact hrecords x rec hx

lemma kept_freshStore : Kept freshStore where
  core := Cli.reachable_freshStore.live.toCore
  named := by
    rw [named_snapshot_iff]
    constructor <;> simp [freshStore, applyAuthority]
  authority := rfl
  runtimeGeneration := rfl

section Kept

variable {s t : ProvenanceStore}

lemma boots_eq_empty (h : s.authority = freshStore.authority) : s.authoritySnapshot.boots = ∅ := by
  apply ExtTreeMap.ext_getElem?
  intro w
  rw [getElem?_authoritySnapshot_boots, h]
  have hboot : freshStore.authority.bootOf w = none := ExtTreeMap.getElem?_empty
  rw [hboot, ite_self, ExtTreeMap.getElem?_empty]

lemma snapshot_congr (hs : s.authority = freshStore.authority) (h : bare t = bare s) : t.snapshot = s.snapshot := by
  have hauthority : t.authority = s.authority := congrArg (fun s => s.authority) h
  have hrecords : t.records = s.records := congrArg (fun s => s.records) h
  have hstatus : t.status = s.status := congrArg (fun s => s.status) h
  have hset : ∀ r : ProvenanceStore, r.authoritySnapshot =
      { (bare r).authoritySnapshot with boots := r.authoritySnapshot.boots } := fun _ => rfl
  have hsnapshot : t.authoritySnapshot = s.authoritySnapshot := by
    rw [hset t, hset s, h, boots_eq_empty hs, boots_eq_empty (hauthority.trans hs)]
  rw [snapshot, snapshot, hrecords, hstatus, hsnapshot]

lemma Kept.snapshot_bare (h : Kept s) : (bare s).snapshot = s.snapshot := snapshot_congr h.authority rfl

lemma Kept.reload (h : Kept s) :
    ∃ r, ({} : ProvenanceStore).restore s.snapshot = (.ok (), r) ∧ Kept r ∧ bare r = bare s := by
  obtain ⟨r, hrun, hr, hrecords⟩ := restore_snapshot h.core ({} : ProvenanceStore)
  have hepoch : s.authority.epoch ≠ 0 := by
    rw [h.authority]
    decide
  have hauthority : r.authority = s.authority := by
    have hrebuild := hr.authority.trans (s.rebuild_authoritySnapshot hepoch)
    rw [boots_eq_empty h.authority] at hrebuild
    rw [hrebuild, h.authority]
    rfl
  have hruntime : r.runtimeGeneration = s.runtimeGeneration := by
    rw [hr.runtimeGeneration, h.runtimeGeneration]
    rfl
  have hstatus : r.status = s.status := hr.status
  have hbare : bare r = bare s := by
    simp only [bare, hrecords, hr.core.provToState_eq h.core hrecords, hr.core.graph_eq h.core hrecords, hstatus,
      hauthority, hruntime]
  refine ⟨r, hrun, ⟨hr.core, ?_, hauthority.trans h.authority, hruntime.trans h.runtimeGeneration⟩, hbare⟩
  rw [snapshot_congr h.authority hbare]
  exact h.named

lemma Kept.commit (h : Kept s) {d : RecordData} {g : ProvenanceGraph} (hv : validateRecord d = none)
    (hi : s.Insertable d) (hg : s.Linked d g) (hd : RecordNamed d) : Kept (s.commit d g) := by
  obtain ⟨hrecords, hstatus⟩ := (named_snapshot_iff s).mp h.named
  refine ⟨h.core.commit hi hv hg, (named_snapshot_iff _).mpr ⟨fun x rec hx => ?_, fun x st hx => ?_⟩, h.authority,
    h.runtimeGeneration⟩
  · rw [getElem?_commit_records] at hx
    split at hx
    · obtain rfl := Option.some.inj hx
      exact hd
    · exact hrecords x rec hx
  · rw [getElem?_commit_status] at hx
    split at hx
    · obtain rfl := Option.some.inj hx
      exact ⟨hd.validity, hd.invalidationReason⟩
    · exact hstatus x st hx

lemma Kept.invalidate (h : Kept s) {subj : InvalidatingSubject} (hreason : subj.reason.isValid = true) :
    Kept (s.invalidate subj).2 := by
  by_cases hsubject : subj.subject ∈ s.records
  · obtain ⟨hrecords, hstatus⟩ := (named_snapshot_iff s).mp h.named
    have hget := h.core.getElem?_invalidate_status hsubject
    obtain ⟨status, byValidity, he⟩ := s.invalidate_frame subj
    refine ⟨h.core.invalidate subj, (named_snapshot_iff _).mpr ⟨fun x rec hx => ?_, fun x st hx => ?_⟩, ?_, ?_⟩
    · rw [he] at hx
      exact hrecords x rec hx
    · rw [hget] at hx
      split at hx
      · next hmem =>
        obtain rfl := Option.some.inj hx
        refine ⟨by simp [invalidatedStatus], ?_⟩
        rw [invalidatedStatus_reason h.core.graph subj hmem]
        exact hreason
      · exact hstatus x st hx
    · rw [he]
      exact h.authority
    · rw [he]
      exact h.runtimeGeneration
  · rw [ProvenanceStore.invalidate, if_pos hsubject]
    exact h

end Kept

/-- The command cannot tell a store from its bare one, saves to one of its arguments, and saves a kept store. -/
structure Fair (argv : List ByteString) (body : ProvenanceStore → Except String Plan) : Prop where
  bare : ∀ s, Kept s → (body (bare s)).map Plan.bare = (body s).map Plan.bare
  kept : ∀ s t path finish, Kept s → body s = .ok (.save t path finish) → Kept t ∧ path ∈ argv

section Bodies

variable {argv : List ByteString}

lemma fair_print {body : ProvenanceStore → Printed} (h : ∀ s, body (bare s) = body s) :
    Fair argv fun s => .ok (.print (body s)) where
  bare := by
    intro s _
    rw [h]
  kept := nofun

lemma recordNamed_fromArgs (a : Args) (subject : ByteString) : RecordNamed (recordFromArgs a subject) := by
  constructor <;> simp [recordFromArgs]

lemma fair_register (args : List ByteString) {path : ByteString} (hpath : path ∈ argv) :
    Fair argv (register args path) where
  bare := by
    intro s _
    rw [register, register, publishFromArgs, publishFromArgs]
    cases arg (parseArgs ∅ args) "subject" with
    | none => rfl
    | some subject =>
      obtain ⟨hresult, hstore⟩ := publish_bare s (recordFromArgs (parseArgs ∅ args) subject)
      dsimp only
      generalize (bare s).publish (recordFromArgs (parseArgs ∅ args) subject) = r at hresult hstore ⊢
      generalize s.publish (recordFromArgs (parseArgs ∅ args) subject) = r' at hresult hstore ⊢
      obtain ⟨out, t⟩ := r
      obtain ⟨out', t'⟩ := r'
      obtain rfl : out = out' := hresult
      have hbare : bare t = bare t' := hstore
      have hsize : t.size = t'.size := congrArg (fun s => s.size) hbare
      cases out with
      | error e => rfl
      | ok out =>
        cases hok : out.ok with
        | false =>
          simp only [hok, Bool.not_false, if_true]
        | true =>
          simp only [hok, Bool.not_true, Bool.false_eq_true, if_false, hsize]
          exact congrArg (fun s => Except.ok (Plan.save s path _)) hbare
  kept := by
    intro s t path' finish hs h
    rw [register, publishFromArgs] at h
    cases hsubject : arg (parseArgs ∅ args) "subject" with
    | none =>
      rw [hsubject] at h
      cases h
    | some subject =>
      rw [hsubject] at h
      dsimp only at h
      have hstep := publish_step hs.core (recordFromArgs (parseArgs ∅ args) subject)
      generalize s.publish (recordFromArgs (parseArgs ∅ args) subject) = r at h hstep
      cases hstep with
      | rejected error => cases h
      | accepted g hv hi hg =>
        cases h
        exact ⟨hs.commit hv hi hg (recordNamed_fromArgs _ subject), hpath⟩

lemma fair_invalidate (args : List ByteString) {path : ByteString} (subject : ByteString) (hpath : path ∈ argv) :
    Fair argv (invalidate args path subject) where
  bare := by
    intro s _
    rw [invalidate, invalidate]
    generalize (⟨⟨hx subject⟩, _, _⟩ : InvalidatingSubject) = subj
    obtain ⟨hresult, hstore⟩ := invalidate_bare s subj
    generalize (bare s).invalidate subj = r at hresult hstore ⊢
    generalize s.invalidate subj = r' at hresult hstore ⊢
    obtain ⟨out, t⟩ := r
    obtain ⟨out', t'⟩ := r'
    obtain rfl : out = out' := hresult
    have hbare : bare t = bare t' := hstore
    dsimp only
    split
    · rfl
    · exact congrArg (fun s => Except.ok (Plan.save s path _)) hbare
  kept := by
    intro s t path' finish hs h
    rw [invalidate] at h
    generalize hsubj : (⟨⟨hx subject⟩, _, _⟩ : InvalidatingSubject) = subj at h
    have hkept : Kept (s.invalidate subj).2 := hs.invalidate (by
      rw [← hsubj]
      exact (EnumValue.isValid_iff _).mpr ⟨_, rfl⟩)
    generalize s.invalidate subj = r at h hkept
    obtain ⟨out, t'⟩ := r
    dsimp only at h
    split at h
    · cases h
    · cases h
      exact ⟨hkept, hpath⟩

lemma fair_save (done : String) {out : ByteString} (hout : out ∈ argv) : Fair argv fun s => .ok (save done out s) where
  bare := by
    intro s hs
    rw [save, save, hs.snapshot_bare]
    rfl
  kept := by
    intro s t path finish hs h
    cases h
    exact ⟨hs, hout⟩

lemma fair_replay : Fair argv replay where
  bare := by
    intro s hs
    rw [replay, replay, hs.snapshot_bare]
  kept := by
    intro s t path finish hs h
    rw [replay] at h
    split at h
    · cases h
    split at h
    · cases h
    split at h
    · cases h
    · cases h

lemma publishAll_bare (ds : List RecordData) {s t : ProvenanceStore} (h : bare s = bare t) :
    (publishAll ds s).map size = (publishAll ds t).map size := by
  induction ds generalizing s t with
  | nil =>
    have hsize : s.size = t.size := congrArg (fun s => s.size) h
    exact congrArg Except.ok hsize
  | cons d ds ih =>
    obtain ⟨hresult, hstore⟩ := publish_bare s d
    obtain ⟨hresult', hstore'⟩ := publish_bare t d
    rw [h] at hresult hstore
    have hboth : (s.publish d).1 = (t.publish d).1 ∧ bare (s.publish d).2 = bare (t.publish d).2 :=
      ⟨hresult.symm.trans hresult', hstore.symm.trans hstore'⟩
    rw [publishAll, publishAll]
    generalize s.publish d = r at hboth ⊢
    generalize t.publish d = r' at hboth ⊢
    obtain ⟨out, u⟩ := r
    obtain ⟨out', u'⟩ := r'
    obtain ⟨hout, hu⟩ := hboth
    obtain rfl : out = out' := hout
    cases out with
    | error e => rfl
    | ok out => exact ih hu

lemma fair_benchmark (timing : Timing) (args : List ByteString) : Fair argv (benchmark timing args) where
  bare := by
    intro s _
    rw [benchmark, benchmark]
    have hsize := publishAll_bare
      ((List.range (((arg (parseArgs ∅ args) "n").map atoi).getD 1000).toNat).map benchmarkRecord)
      (s := bare s) (t := s) rfl
    generalize publishAll _ (bare s) = r at hsize ⊢
    generalize publishAll _ s = r' at hsize ⊢
    cases r with
    | error e =>
      cases r' with
      | error e' =>
        cases hsize
        rfl
      | ok t' => cases hsize
    | ok t =>
      cases r' with
      | error e' => cases hsize
      | ok t' =>
        have ht : t.size = t'.size := Except.ok.inj hsize
        dsimp only
        rw [ht]
  kept := by
    intro s t path finish hs h
    rw [benchmark] at h
    split at h
    · cases h
    · cases h

end Bodies

inductive Command.Fair (argv : List ByteString) : Command → Prop
  | usage : Command.Fair argv .usage
  | onStore {file : ByteString} {body : ProvenanceStore → Except String Plan} (hfile : file ∈ argv)
      (hbody : Spc.Fair argv body) : Command.Fair argv (.onStore file body)
  | recover {file out : ByteString} (hfile : file ∈ argv) (hout : out ∈ argv) : Command.Fair argv (.recover file out)

lemma fair_withFile {argv args : List ByteString} {f : ByteString → List ByteString → Command}
    (h : ∀ file rest, args = file :: rest → (f file rest).Fair argv) : (withFile args f).Fair argv := by
  cases args with
  | nil => exact .usage
  | cons file rest => exact h file rest rfl

lemma fair_withSubject {argv args : List ByteString} {f : ByteString → ByteString → List ByteString → Command}
    (h : ∀ file subject rest, args = file :: subject :: rest → (f file subject rest).Fair argv) :
    (withSubject args f).Fair argv := by
  match args with
  | [] => exact .usage
  | [_] => exact .usage
  | file :: subject :: rest => exact h file subject rest rfl

lemma fair_ite {argv : List ByteString} {p : Prop} [Decidable p] {a b : Command} (ha : p → a.Fair argv)
    (hb : b.Fair argv) : (if p then a else b).Fair argv := by
  split
  · next h => exact ha h
  · exact hb

def paths : List ByteString → List ByteString
  | [] => []
  | cmd :: args =>
    if cmd = ByteString.ofText "save" ∨ cmd = ByteString.ofText "recover" then args.take 2 else args.take 1

lemma fair_parseCommand (timing : Timing) (cmd : ByteString) (args : List ByteString) :
    (parseCommand timing (cmd :: args)).Fair (paths (cmd :: args)) := by
  have hfile : ∀ file rest, args = file :: rest → file ∈ paths (cmd :: args) := by
    rintro file rest rfl
    rw [paths]
    split <;> simp
  have hout : cmd = ByteString.ofText "save" ∨ cmd = ByteString.ofText "recover" → ∀ file out rest,
      args = file :: out :: rest → out ∈ paths (cmd :: args) := by
    rintro hcmd file out rest rfl
    rw [paths, if_pos hcmd]
    simp
  have hprint : ∀ body : ByteString → List ByteString → ProvenanceStore → Printed,
      (∀ subject rest s, body subject rest (bare s) = body subject rest s) →
      (withSubject args fun file subject rest => printing file (body subject rest)).Fair (paths (cmd :: args)) := by
    intro body hbody
    exact fair_withSubject fun file subject rest hargs => .onStore (hfile file _ hargs) (fair_print (hbody subject rest))
  rw [parseCommand]
  refine fair_ite (fun _ => ?_) ?_
  · exact fair_withFile fun file rest hargs => .onStore (hfile file _ hargs) (fair_register rest (hfile file _ hargs))
  refine fair_ite (fun _ => ?_) ?_
  · exact hprint (fun subject rest => inspect subject _) fun _ _ _ => rfl
  refine fair_ite (fun _ => ?_) ?_
  · exact hprint (fun subject _ => explain subject) fun _ _ _ => rfl
  refine fair_ite (fun _ => ?_) ?_
  · exact hprint (fun subject _ => ancestry subject) fun _ _ _ => rfl
  refine fair_ite (fun _ => ?_) ?_
  · exact hprint (fun subject _ => descend subject) fun _ _ _ => rfl
  refine fair_ite (fun _ => ?_) ?_
  · exact hprint (fun subject _ => deps subject) fun _ _ _ => rfl
  refine fair_ite (fun _ => ?_) ?_
  · exact hprint (fun subject rest => checkReuse (subject :: rest) subject) fun _ _ _ => rfl
  refine fair_ite (fun _ => ?_) ?_
  · exact fair_withSubject fun file subject rest hargs =>
      .onStore (hfile file _ hargs) (fair_invalidate rest subject (hfile file _ hargs))
  refine fair_ite (fun hcmd => ?_) ?_
  · exact fair_withSubject fun file out rest hargs =>
      .onStore (hfile file _ hargs) (fair_save "saved" (hout (.inl hcmd) file out rest hargs))
  refine fair_ite (fun hcmd => ?_) ?_
  · exact fair_withSubject fun file out rest hargs =>
      .recover (hfile file _ hargs) (hout (.inr hcmd) file out rest hargs)
  refine fair_ite (fun _ => ?_) ?_
  · exact fair_withFile fun file rest hargs => .onStore (hfile file _ hargs) fair_replay
  refine fair_ite (fun _ => ?_) ?_
  · exact fair_withFile fun file rest hargs => .onStore (hfile file _ hargs) (fair_benchmark timing rest)
  · exact .usage

lemma Fair.congr {argv : List ByteString} {body : ProvenanceStore → Except String Plan} (h : Fair argv body)
    {r s : ProvenanceStore} (hr : Kept r) (hs : Kept s) (hbare : Spc.bare r = Spc.bare s) :
    (body r).map Plan.bare = (body s).map Plan.bare := by
  rw [← h.bare r hr, ← h.bare s hs, hbare]

inductive Loaded.Alike : Loaded → Loaded → Prop
  | error (e : ByteString) : Loaded.Alike (.error e) (.error e)
  | store {r s : ProvenanceStore} (hr : Kept r) (hs : Kept s) (h : bare r = bare s) :
      Loaded.Alike (.ok (.ok r)) (.ok (.ok s))

section Alike

variable {c : Command} {argv : List ByteString} (hc : c.Fair argv) {read read' : ByteString → Loaded}
  (hread : ∀ path ∈ argv, (read path).Alike (read' path))

include hc hread

lemma Command.Fair.plan_congr : (c.plan read).map Plan.bare = (c.plan read').map Plan.bare := by
  cases hc with
  | usage => rfl
  | onStore hfile hbody =>
    rw [Command.plan, Command.plan]
    have hload := hread _ hfile
    generalize read _ = l at hload ⊢
    generalize read' _ = l' at hload ⊢
    cases hload with
    | error e => rfl
    | store hr hs h => exact hbody.congr hr hs h
  | recover hfile hout =>
    rw [Command.plan, Command.plan]
    have hload := hread _ hfile
    generalize read _ = l at hload ⊢
    generalize read' _ = l' at hload ⊢
    cases hload with
    | error e => rfl
    | store hr hs h => exact (fair_save "recovered" hout).congr hr hs h

lemma Command.Fair.saved {s : ProvenanceStore} {path : ByteString} {finish : Option String → Printed}
    (h : c.plan read' = .ok (.save s path finish)) : Kept s ∧ path ∈ argv := by
  cases hc with
  | usage => cases h
  | onStore hfile hbody =>
    rw [Command.plan] at h
    have hload := hread _ hfile
    generalize read _ = l at hload
    generalize read' _ = l' at hload h
    cases hload with
    | error e => exact hbody.kept _ _ _ _ kept_freshStore h
    | store hr hs hbare => exact hbody.kept _ _ _ _ hs h
  | recover hfile hout =>
    rw [Command.plan] at h
    have hload := hread _ hfile
    generalize read _ = l at hload
    generalize read' _ = l' at hload h
    cases hload with
    | error e => cases h
    | store hr hs hbare => exact (fair_save "recovered" hout).kept _ _ _ _ hs h

end Alike

/-- A file of the directory, under the one name that no temporary file and no link has. -/
@[mk_iff] structure Tidy (dir path : ByteString) : Prop where
  directory : dir = [] ∨ dir.getLast? = some 0x2F
  inside : dir <+: path
  name : path.drop dir.length ∉ [[], ByteString.ofText ".", ByteString.ofText ".."]
  slash : 0x2F ∉ path.drop dir.length
  null : 0 ∉ path
  lasting : ¬ ByteString.ofText ".tmp" <:+ path

instance (dir path : ByteString) : Decidable (Tidy dir path) := decidable_of_iff' _ (tidy_iff dir path)

inductive Entry : Option ByteString → Option ProvenanceStore → Prop
  | none : Entry none none
  | image {s : ProvenanceStore} {bytes : ByteString} (hs : Kept s)
      (hsize : payloadSize s.snapshot ≤ kMaxPayloadLen.toNat) (h : fileImage s.snapshot = .ok bytes) :
      Entry (some bytes) (some s)

def Stores (dir : ByteString) (files : Files) (w : Shelf) : Prop :=
  ∀ path, Tidy dir path → Entry (files.content (textOf path)) (w path)

lemma Entry.read {files : Files} {w : Shelf} {path : ByteString} (h : Entry (files.content (textOf path)) (w path)) :
    (readFile files loadDone path).Alike (w.read path) := by
  rw [readFile, readBytes_loadDone, Shelf.read]
  generalize files.content (textOf path) = file at h ⊢
  generalize w path = stored at h ⊢
  cases h with
  | none => exact .error _
  | image hs hsize h =>
    obtain ⟨r, hrun, hr, hbare⟩ := hs.reload
    simp only [hs.core.savedLoads (fun _ => ⟨hs.named, hsize⟩) _ h, hrun]
    exact .store hr hs hbare

section Names

variable {dir path other : ByteString}

lemma toNat_ofNat_byte (b : UInt8) : (Char.ofNat b.toNat).toNat = b.toNat := by
  have hlt := b.toNat_lt
  have hvalid : b.toNat.isValidChar := .inl (by omega)
  rw [Char.ofNat, dif_pos hvalid]
  rfl

lemma textOf_injective : Function.Injective textOf := by
  have hchar : Function.Injective fun b : UInt8 => Char.ofNat b.toNat := by
    intro a b h
    have hcode := congrArg Char.toNat h
    rw [toNat_ofNat_byte, toNat_ofNat_byte] at hcode
    exact UInt8.toNat_inj.mp hcode
  exact fun a b h => List.map_injective_iff.mpr hchar (String.ofList_injective h)

lemma textOf_append (a b : ByteString) : textOf (a ++ b) = textOf a ++ textOf b := by
  rw [textOf, List.map_append, String.ofList_append]
  rfl

lemma Tidy.not_mem_textOf (h : Tidy dir path) : '\x00' ∉ (textOf path).toList := by
  rw [textOf, String.toList_ofList]
  intro hmem
  obtain ⟨b, hb, hchar⟩ := List.mem_map.mp hmem
  have hcode := congrArg Char.toNat hchar
  rw [toNat_ofNat_byte] at hcode
  obtain rfl : b = 0 := UInt8.toNat_inj.mp hcode
  exact h.null hb

lemma Tidy.cName_ne (h : Tidy dir path) (ho : Tidy dir other) (hne : path ≠ other) :
    cName (textOf path) ≠ cName (textOf other) := by
  rw [cName_of_not_mem h.not_mem_textOf, cName_of_not_mem ho.not_mem_textOf]
  exact textOf_injective.ne hne

lemma Tidy.cName_ne_tmp (h : Tidy dir path) (ho : Tidy dir other) :
    cName (textOf path) ≠ cName (textOf other ++ ".tmp") := by
  have htmp : '\x00' ∉ (textOf other ++ ".tmp").toList := by
    rw [String.toList_append, List.mem_append, not_or]
    exact ⟨ho.not_mem_textOf, by decide⟩
  rw [cName_of_not_mem h.not_mem_textOf, cName_of_not_mem htmp]
  intro hsame
  have hname : textOf path = textOf (other ++ ByteString.ofText ".tmp") := by
    rw [hsame, textOf_append, ofText_eq]
    rfl
  exact h.lasting ⟨other, (textOf_injective hname).symm⟩

end Names

@[mk_iff] structure Reported (o : CallOutcomes) : Prop where
  stored : o.written = true → 28 + kMaxPayloadLen.toNat ≤ o.stored
  replaced : o.renamed = true ∨ o.removed = false ∨ o.renamedAgain = true

instance (o : CallOutcomes) : Decidable (Reported o) := decidable_of_iff' _ (reported_iff o)

section Save

variable {snap : StoreSnapshot} {o : CallOutcomes} {dir path : ByteString} {files : Files} (ho : Reported o)
  (hpath : Tidy dir path)

include ho hpath

lemma saveFile_failed (h : (saveFile snap (textOf path) o).1 ≠ .ok none) :
    (files.after (saveFile snap (textOf path) o).2).content (textOf path) = files.content (textOf path) := by
  have hkeep := fun content => files.content_put_of_ne content (cName_tmp_ne hpath.not_mem_textOf).symm
  rw [saveFile] at h ⊢
  generalize fileImage snap = image at h ⊢
  cases image with
  | error e => rfl
  | ok image =>
    obtain ⟨-, hreplaced⟩ := ho
    rcases o with ⟨opened, written, partway, stored, renamed, removed, renamedAgain⟩
    cases opened with
    | false => rfl
    | true =>
      cases written with
      | false => simp [Files.after_writes, hkeep]
      | true =>
        cases renamed <;> cases removed <;> cases renamedAgain <;>
          simp_all [Files.after_writes]

lemma saveFile_complete {s : ProvenanceStore} (hs : Kept s) (hsize : payloadSize s.snapshot ≤ kMaxPayloadLen.toNat)
    (h : (saveFile s.snapshot (textOf path) o).1 = .ok none) :
    Entry ((files.after (saveFile s.snapshot (textOf path) o).2).content (textOf path)) (some s) := by
  obtain ⟨image, himage, hcontent | ⟨hnull, -⟩⟩ := saveFile_done h files
  · obtain ⟨payload, hp⟩ := encode_of_fileImage himage
    have hlength := length_encode ((emits_snapshotChunks_iff s.snapshot).mp ⟨payload, hp⟩) hp
    obtain ⟨header, rfl, hheader, -⟩ := fileImage_parts hp himage
    have hstored := ho.stored (saveFile_written h)
    rw [List.take_of_length_le (by rw [List.length_append]; omega)] at hcontent
    rw [hcontent]
    exact .image hs hsize himage
  · exact absurd hnull hpath.not_mem_textOf

end Save

section Stores

variable {dir : ByteString} {files : Files} {w : Shelf} {path : ByteString} {o : CallOutcomes} (h : Stores dir files w)
  (ho : Reported o) (hpath : Tidy dir path)

include h ho hpath

lemma Stores.save_failed {snap : StoreSnapshot} (hfailed : (saveFile snap (textOf path) o).1 ≠ .ok none) :
    Stores dir (files.after (saveFile snap (textOf path) o).2) w := by
  intro q hq
  by_cases hsame : q = path
  · subst hsame
    rw [saveFile_failed ho hpath hfailed]
    exact h q hq
  · rw [saveFile_frame (hq.cName_ne_tmp hpath) (hq.cName_ne hpath hsame)]
    exact h q hq

lemma Stores.save_complete {s : ProvenanceStore} (hs : Kept s) (hsize : payloadSize s.snapshot ≤ kMaxPayloadLen.toNat)
    (hdone : (saveFile s.snapshot (textOf path) o).1 = .ok none) :
    Stores dir (files.after (saveFile s.snapshot (textOf path) o).2) (Function.update w path (some s)) := by
  intro q hq
  by_cases hsame : q = path
  · subst hsame
    rw [Function.update_self]
    exact saveFile_complete ho hpath hs hsize hdone
  · rw [saveFile_frame (hq.cName_ne_tmp hpath) (hq.cName_ne hpath hsame), Function.update_of_ne hsame]
    exact h q hq

end Stores

def Fits : Except String Plan → Prop
  | .ok (.save s _ _) => payloadSize s.snapshot ≤ kMaxPayloadLen.toNat
  | _ => True

instance : ∀ p, Decidable (Fits p)
  | .ok (.save _ _ _) => inferInstanceAs (Decidable (_ ≤ _))
  | .ok (.print _) => inferInstanceAs (Decidable True)
  | .error _ => inferInstanceAs (Decidable True)

/-- A call whose files lie in the directory and are read where they exist, which does not save more than a file can
hold. -/
@[mk_iff] structure Ordinary (dir : ByteString) (w : Shelf) (c : Call) : Prop where
  tidy : ∀ path ∈ paths c.argv, Tidy dir path
  loaded : c.load = loadDone
  size : Fits (c.plan w.read)
  reported : Reported c.outcomes

instance (dir : ByteString) (w : Shelf) (c : Call) : Decidable (Ordinary dir w c) :=
  decidable_of_iff' _ (ordinary_iff dir w c)

lemma fair_call (c : Call) : (parseCommand c.timing c.argv).Fair (paths c.argv) := by
  cases c.argv with
  | nil => exact .usage
  | cons cmd args => exact fair_parseCommand c.timing cmd args

lemma plan_of_map_error {p : Except String Plan} {e : String} (h : p.map Plan.bare = .error e) : p = .error e := by
  rcases p with e' | p
  · cases h
    rfl
  · cases h

lemma plan_of_map_print {p : Except String Plan} {printed : Printed}
    (h : p.map Plan.bare = .ok (.print printed)) : p = .ok (.print printed) := by
  rcases p with e | ⟨printed' | ⟨r, path, finish⟩⟩
  · cases h
  · cases h
    rfl
  · cases h

lemma plan_of_map_save {p : Except String Plan} {s : ProvenanceStore} {path : ByteString}
    {finish : Option String → Printed} (h : p.map Plan.bare = .ok (.save s path finish)) :
    ∃ r, p = .ok (.save r path finish) ∧ bare r = s := by
  rcases p with e | ⟨printed | ⟨r, path', finish'⟩⟩
  · cases h
  · cases h
  · obtain ⟨hr, rfl, rfl⟩ := Plan.save.inj (Except.ok.inj h)
    exact ⟨r, rfl, hr⟩

section Calls

variable {dir : ByteString}

lemma run_alike {files : Files} {w : Shelf} {c : Call} (h : Stores dir files w) (hc : Ordinary dir w c) :
    (run files c).1 = (w.run c).1 ∧ Stores dir (run files c).2 (w.run c).2 := by
  have hread : ∀ path ∈ paths c.argv, (readFile files c.load path).Alike (w.read path) := by
    intro path hpath
    rw [hc.loaded]
    exact (h path (hc.tidy path hpath)).read
  have hplan : (c.plan (readFile files c.load)).map Plan.bare = (c.plan w.read).map Plan.bare :=
    (fair_call c).plan_congr hread
  have hsaved : ∀ s path finish, c.plan w.read = .ok (.save s path finish) → Kept s ∧ path ∈ paths c.argv :=
    fun s path finish => (fair_call c).saved hread
  have hsize := hc.size
  rw [run, Shelf.run]
  generalize c.plan (readFile files c.load) = p at hplan ⊢
  generalize c.plan w.read = p' at hplan hsaved hsize ⊢
  rcases p' with e | ⟨printed | ⟨s, path, finish⟩⟩
  · obtain rfl : p = .error e := plan_of_map_error hplan
    exact ⟨rfl, h⟩
  · obtain rfl : p = .ok (.print printed) := plan_of_map_print hplan
    exact ⟨rfl, h⟩
  · obtain ⟨r, rfl, hbare⟩ := plan_of_map_save hplan
    obtain ⟨hs, hpath⟩ := hsaved s path finish rfl
    have htidy := hc.tidy path hpath
    have hsnapshot : r.snapshot = s.snapshot := snapshot_congr hs.authority hbare
    simp only [hsnapshot]
    rcases hresult : (saveFile s.snapshot (textOf path) c.outcomes).1 with e | (_ | e)
    · exact ⟨rfl, h.save_failed hc.reported htidy (by simp [hresult])⟩
    · exact ⟨rfl, h.save_complete hc.reported htidy hs hsize hresult⟩
    · exact ⟨rfl, h.save_failed hc.reported htidy (by simp [hresult])⟩

theorem printed_in_memory {calls : List Call}
    (h : Along (fun w c => (Shelf.run w c).2) (Ordinary dir) (fun _ => none) calls) :
    answers run (fun _ => none) calls = answers Shelf.run (fun _ => none) calls := by
  have hstep : ∀ files w c, Stores dir files w → Ordinary dir w c →
      (run files c).1 = (Shelf.run w c).1 ∧ Stores dir (run files c).2 (Shelf.run w c).2 :=
    fun _ _ _ => run_alike
  exact answers_eq hstep (fun _ _ => .none) h

end Calls

def reported : CallOutcomes := ⟨true, true, [], 536870940, true, true, true⟩

def callOf (words : List String) : Call := ⟨words.map ByteString.ofText, loadDone, reported, ("", "")⟩

def twoRegistered : List Call :=
  [callOf ["register", "dir/s", "--subject", "2"], callOf ["register", "dir/s", "--subject", "3", "--parents", "2"],
    callOf ["invalidate", "dir/s", "2"], callOf ["save", "dir/s", "dir/t"], callOf ["check-reuse", "dir/t", "3"]]

theorem twoRegistered_printed : (answers run (fun _ => none) twoRegistered).map (Except.map Printed.out) =
    [.ok (lineOf "registered subject 0x0000000000000002 (size=1)"),
      .ok (lineOf "registered subject 0x0000000000000003 (size=2)"),
      .ok (lineOf "invalidated 2 subject(s)"),
      .ok (lineOf "saved digest=6def80062ac77402"),
      .ok (lineOf "INVALIDATED (subject has been invalidated)")] := by
  rw [@printed_in_memory (ByteString.ofText "dir/") _ (by decide +kernel)]
  decide +kernel

end StateProvenance.Spc
