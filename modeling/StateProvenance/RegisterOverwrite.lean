import StateProvenance.Cli
import StateProvenance.SnapshotFile

/-! What `register` does to a file that does not load: it starts over with an empty store, and a record that this
store accepts replaces the file. -/

namespace StateProvenance.Cli

open Std Library.OrderedMap Library ProvenanceStore

lemma reachable_freshStore : Reachable freshStore := (Reachable.empty.applyAuthority _).applyAuthority _

lemma blank_freshStore : freshStore.Blank := ⟨reachable_freshStore.live.toCore, rfl, rfl, rfl⟩

lemma loadStore_rejected {bytes : ByteString} (h : (loadFile bytes).snapshot = none) :
    loadStore (some bytes) = (.ok (), freshStore) := by
  rw [loadStore, Option.bind_some, h]

lemma publish_freshStore_rejected {d : RecordData} (h : ¬ (validateRecord d = none ∧ d.inputStates = [])) :
    ∃ error, freshStore.publish d = (.ok { error }, freshStore) := by
  generalize hr : freshStore.publish d = r
  have hstep := publish_step reachable_freshStore.live.toCore d
  rw [hr] at hstep
  cases hstep with
  | rejected error => exact ⟨error, rfl⟩
  | accepted g hv hi hg =>
    refine absurd ⟨hv, List.eq_nil_iff_forall_not_mem.mpr fun x hx => ?_⟩ h
    exact ExtTreeMap.not_mem_empty (hi.inputs x hx)

section FromArgs

variable (a : Args) (subject : ByteString) (g : ProvenanceGraph)

lemma boots_commit_freshStore :
    (freshStore.commit (recordFromArgs a subject) g).snapshot.authority.boots = ∅ := rfl

lemma named_commit_freshStore : Named (freshStore.commit (recordFromArgs a subject) g).snapshot where
  records := by
    intro rec hr
    rw [blank_freshStore.snapshot_records, List.mem_singleton] at hr
    subst hr
    constructor <;> simp [recordFromArgs]
  status := by
    intro e he
    rw [blank_freshStore.snapshot_status, List.mem_singleton] at he
    subst he
    constructor <;> simp [recordFromArgs]

lemma payloadSize_commit_freshStore (hi : (recordFromArgs a subject).inputStates = [])
    (hs : ∀ x ∈ (recordFromArgs a subject).strings, x.length ≤ kMaxStringLen.toNat) :
    payloadSize (freshStore.commit (recordFromArgs a subject) g).snapshot ≤ kMaxPayloadLen.toNat := by
  -- Three texts of at most 64 MiB each, in a payload of at most 512 MiB.
  have hsize : recordSize (recordFromArgs a subject) = 289 + (((arg a "arch").getD []).length +
      ((arg a "dtype").getD []).length + ((arg a "shape").getD []).length) := by
    rw [recordSize, hi]
    simp [RecordData.strings, recordFromArgs, Nat.add_assoc]
  have harch : ((arg a "arch").getD []).length ≤ kMaxStringLen.toNat :=
    hs _ (by simp [RecordData.strings, recordFromArgs])
  have hdtype : ((arg a "dtype").getD []).length ≤ kMaxStringLen.toNat :=
    hs _ (by simp [RecordData.strings, recordFromArgs])
  have hshape : ((arg a "shape").getD []).length ≤ kMaxStringLen.toNat :=
    hs _ (by simp [RecordData.strings, recordFromArgs])
  have hstring : kMaxStringLen.toNat = 67108864 := rfl
  have hmax : kMaxPayloadLen.toNat = 536870912 := rfl
  have hnote : (recordFromArgs a subject).note = [] := rfl
  rw [payloadSize, blank_freshStore.snapshot_records, blank_freshStore.snapshot_status, boots_commit_freshStore]
  simp only [List.map_cons, List.map_nil, List.sum_cons, List.sum_nil, hsize, hnote, List.length_nil,
    ExtTreeMap.size_empty]
  omega

end FromArgs

structure Registrable (d : RecordData) : Prop where
  acceptable : validateRecord d = none
  inputs : d.inputStates = []
  strings : ∀ x ∈ d.strings, x.length ≤ kMaxStringLen.toNat

def Registers (args : List ByteString) : Prop :=
  ∃ subject, arg (parseArgs ∅ args) "subject" = some subject ∧
    Registrable (recordFromArgs (parseArgs ∅ args) subject)

section Rejected

variable {bytes : ByteString} (hrej : (loadFile bytes).snapshot = none) {args : List ByteString} (files : Files)

include hrej

lemma register_keeps (h : ¬ Registers args) (path : String) (o : CallOutcomes) :
    (register path args o (files.put path (some bytes))).2.content path = some bytes := by
  have hfile : (files.put path (some bytes)).content path = some bytes := Files.content_put_self ..
  rw [register, hfile, loadStore_rejected hrej]
  simp only
  generalize hargs : parseArgs ∅ args = a
  rw [publishFromArgs]
  cases hsubject : arg a "subject" with
  | none => exact hfile
  | some subject =>
    simp only
    by_cases haccepted : validateRecord (recordFromArgs a subject) = none ∧
        (recordFromArgs a subject).inputStates = []
    · obtain ⟨g, hpublish⟩ := blank_freshStore.publish_first haccepted.1 haccepted.2 rfl
      have hfit : ¬ StringsFit (freshStore.commit (recordFromArgs a subject) g).snapshot := by
        intro hf
        rw [blank_freshStore.stringsFit_iff] at hf
        rw [Registers, hargs] at h
        exact h ⟨subject, hsubject, haccepted.1, haccepted.2, hf⟩
      rw [hpublish]
      simp only [Bool.not_true, Bool.false_eq_true, if_false]
      cases himage : fileImage (freshStore.commit (recordFromArgs a subject) g).snapshot with
      | error e =>
        rw [saveFile, himage]
        exact hfile
      | ok image =>
        exact absurd ((emits_snapshotChunks_iff _).mp (encode_of_fileImage himage)) hfit
    · obtain ⟨error, hpublish⟩ := publish_freshStore_rejected haccepted
      rw [hpublish]
      exact hfile

lemma register_replaces (h : Registers args) (path : String) :
    ∃ o image snap, (register path args o (files.put path (some bytes))).2.content path = some image ∧
      (loadFile image).snapshot = some snap := by
  obtain ⟨subject, hsubject, hd⟩ := h
  obtain ⟨g, hpublish⟩ := blank_freshStore.publish_first hd.acceptable hd.inputs rfl
  have hreach : Reachable (freshStore.commit (recordFromArgs (parseArgs ∅ args) subject) g) := by
    have hstep := reachable_freshStore.publish (recordFromArgs (parseArgs ∅ args) subject)
    rwa [hpublish] at hstep
  have hfit := (blank_freshStore.stringsFit_iff g).mpr hd.strings
  obtain ⟨payload, hp⟩ := (emits_snapshotChunks_iff _).mpr hfit
  obtain ⟨image, himage⟩ := fileImage_eq_ok hp
  have hloads := hreach.live.toCore.savedLoads (fun _ => ⟨named_commit_freshStore _ _ g,
    payloadSize_commit_freshStore _ _ g hd.inputs hd.strings⟩) image himage
  refine ⟨⟨true, true, [], image.length, true, true, true⟩, image, _, ?_, hloads⟩
  rw [register, Files.content_put_self, loadStore_rejected hrej]
  simp only [publishFromArgs, hsubject, hpublish, Bool.not_true, Bool.false_eq_true, if_false, if_true, saveFile, himage]
  simp [Runs.run_append, Files.after_writes, Files.apply]

end Rejected

theorem register_keeps_iff {bytes : ByteString} (hrej : (loadFile bytes).snapshot = none)
    (args : List ByteString) (files : Files) :
    (∀ path o, (register path args o (files.put path (some bytes))).2.content path = some bytes) ↔ ¬ Registers args := by
  refine ⟨fun hkeep hregisters => ?_, register_keeps hrej files⟩
  obtain ⟨o, image, snap, hpath, hloads⟩ := register_replaces hrej files hregisters ""
  rw [hkeep, Option.some.injEq] at hpath
  rw [hpath, hloads] at hrej
  contradiction

def newerFile : ByteString := sampleFile.set 8 2

lemma newerFile_rejected : (loadFile newerFile).snapshot = none := by decide +kernel

theorem register_keeps_with_parents :
    (register "store.bin" (["--subject", "7", "--arch", "sm_120", "--parents", "5,6"].map ByteString.ofText)
      ⟨true, true, [], 1000, true, true, true⟩
      (Files.put (fun _ => none) "store.bin" (some newerFile))).2.content "store.bin" = some newerFile := by
  refine (register_keeps_iff newerFile_rejected _ fun _ => none).mpr ?_ "store.bin"
    ⟨true, true, [], 1000, true, true, true⟩
  rintro ⟨subject, -, hregistrable⟩
  have hparents : arg (parseArgs ∅ (["--subject", "7", "--arch", "sm_120", "--parents", "5,6"].map ByteString.ofText))
      "parents" = some (ByteString.ofText "5,6") := by decide +kernel
  have hinputs : (recordFromArgs (parseArgs ∅ (["--subject", "7", "--arch", "sm_120", "--parents", "5,6"].map
      ByteString.ofText)) subject).inputStates = [⟨5⟩, ⟨6⟩] := by
    change ((arg _ "parents").map _).getD [] = _
    rw [hparents]
    decide +kernel
  exact List.cons_ne_nil _ _ (hinputs.symm.trans hregistrable.inputs)

lemma registers_seven : Registers [ByteString.ofText "--subject", ByteString.ofText "7"] := by
  refine ⟨ByteString.ofText "7", by decide +kernel, ?_, ?_, ?_⟩
  · decide +kernel
  · decide +kernel
  · decide +kernel

theorem register_replaces_newer_file :
    ¬ ∀ bytes args path o (files : Files), (loadFile bytes).snapshot = none →
      (register path args o (files.put path (some bytes))).2.content path = some bytes := by
  intro h
  obtain ⟨o, image, snap, hpath, hloads⟩ :=
    register_replaces newerFile_rejected (fun _ => none) registers_seven "store.bin"
  rw [h _ _ _ _ _ newerFile_rejected, Option.some.injEq] at hpath
  have hrejected := newerFile_rejected
  rw [hpath, hloads] at hrejected
  contradiction

end StateProvenance.Cli
