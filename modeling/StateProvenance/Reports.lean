import StateProvenance.Coordinator
import StateProvenance.Explain
import StateProvenance.PersistRoundTrip
import StateProvenance.Reachable

/-! What the JSON texts tell: a name, a number and an identifier are read back, the text of a record gives all
its fields but two, and the text of a store all its records. -/

namespace StateProvenance.Explain

open Std Library.OrderedMap Library.Json ProvenanceStore

lemma map_eq_of_map_eq {A B C : Type} {f : A → B} {g : A → C} {xs ys : List A}
    (hfg : ∀ x ∈ xs, ∀ y ∈ ys, f x = f y → g x = g y) (h : xs.map f = ys.map f) : xs.map g = ys.map g := by
  induction xs generalizing ys with
  | nil => rw [List.map_eq_nil_iff.mp h.symm]
  | cons x xs ih =>
    cases ys with
    | nil => cases h
    | cons y ys =>
      obtain ⟨hxy, hrest⟩ := List.cons.inj h
      have htail := ih (fun a ha b hb => hfg a (List.mem_cons_of_mem x ha) b (List.mem_cons_of_mem y hb)) hrest
      rw [List.map_cons, List.map_cons, hfg x List.mem_cons_self y List.mem_cons_self hxy, htail]

lemma eq_of_map_eq {A B : Type} {f : A → B} {xs ys : List A} (hf : ∀ x ∈ xs, ∀ y ∈ ys, f x = f y → x = y)
    (h : xs.map f = ys.map f) : xs = ys := by
  simpa using map_eq_of_map_eq (g := id) hf h

def DistinctNames (E : Type) [EnumClass E] : Prop :=
  ((EnumClass.table (E := E)).map fun entry => ByteString.ofText entry.2).Nodup

instance (E : Type) [EnumClass E] : Decidable (DistinctNames E) := inferInstanceAs (Decidable (List.Nodup _))

structure AllDistinct : Prop where
  subjectKind : DistinctNames SubjectKind
  evidence : DistinctNames EvidenceClass
  validity : DistinctNames ValidityState
  invalidationReason : DistinctNames InvalidationReason
  reuseEligibility : DistinctNames ReuseEligibility
  dimension : DistinctNames CompatibilityDimension

lemma allDistinct : AllDistinct := by
  constructor <;> decide +kernel

section Names

variable {E : Type} [EnumClass E]

lemma nameOf_named (e : E) : ∃ name, (e, name) ∈ EnumClass.table (E := E) ∧ (EnumValue.named e).nameOf = name := by
  obtain ⟨entry, hfind⟩ : ∃ entry, (EnumClass.table (E := E)).find?
      (fun entry => EnumValue.named entry.1 = EnumValue.named e) = some entry := by
    rw [← Option.isSome_iff_exists, List.find?_isSome]
    obtain ⟨entry, hentry, rfl⟩ := List.mem_map.mp (EnumClass.mem_table e)
    exact ⟨entry, hentry, by simp⟩
  have hfst : EnumValue.named entry.1 = EnumValue.named e := by simpa using List.find?_some hfind
  obtain ⟨e', name⟩ := entry
  cases hfst
  exact ⟨name, List.mem_of_find?_eq_some hfind, by rw [EnumValue.nameOf, hfind]; rfl⟩

lemma parse_nameOf (h : DistinctNames E) (e : E) :
    EnumClass.parse (ByteString.ofText (EnumValue.named e).nameOf) = some e := by
  obtain ⟨name, hentry, hname⟩ := nameOf_named e
  rw [hname, EnumClass.parse, Option.map_eq_some_iff]
  refine ⟨(e, name), ?_, rfl⟩
  obtain ⟨entry, hfind⟩ : ∃ entry, (EnumClass.table (E := E)).find?
      (fun entry => ByteString.ofText name = ByteString.ofText entry.2) = some entry := by
    rw [← Option.isSome_iff_exists, List.find?_isSome]
    exact ⟨_, hentry, by simp⟩
  have htext : ByteString.ofText name = ByteString.ofText entry.2 := by simpa using List.find?_some hfind
  rw [hfind, List.inj_on_of_nodup_map h hentry (List.mem_of_find?_eq_some hfind) htext]

lemma nameLeaf_inj (h : DistinctNames E) {v w : EnumValue E} (hv : v.isValid = true) (hw : w.isValid = true) :
    (nameLeaf v).value = (nameLeaf w).value ↔ v = w := by
  constructor
  · intro hvalue
    obtain ⟨a, rfl⟩ := (EnumValue.isValid_iff v).mp hv
    obtain ⟨b, rfl⟩ := (EnumValue.isValid_iff w).mp hw
    have htext := parse_nameOf h a
    rw [Value.str.inj hvalue, parse_nameOf h b] at htext
    rw [Option.some.inj htext]
  · rintro rfl
    rfl

end Names

lemma decimal_injective : Function.Injective fun n : ℕ => ByteString.ofText (toString n) := by
  have hdigits : ∀ n : ℕ, Nat.digits 16 (Nat.ofDigits 16 (Nat.digits 10 n)) = Nat.digits 10 n := by
    intro n
    apply Nat.digits_ofDigits 16 (by decide)
    · exact fun d hd => (Nat.digits_lt_base (by decide) hd).trans (by decide)
    · exact fun hne => Nat.getLast_digit_ne_zero 10 (Nat.digits_ne_nil_iff_ne_zero.mp hne)
  intro m n h
  obtain ⟨ds, -, htext, hds, hvalue⟩ := ofText_toString m
  obtain ⟨es, -, htext', hes, hvalue'⟩ := ofText_toString n
  have hmap : ds.map digitByte = es.map digitByte := by rwa [← htext, ← htext']
  have heq : ds = es := by
    refine eq_of_map_eq (fun a ha b hb hab => ?_) hmap
    have hdigit := hexDigit_digitByte ((hds a ha).trans (by decide))
    rw [hab, hexDigit_digitByte ((hes b hb).trans (by decide))] at hdigit
    exact (Option.some.inj hdigit).symm
  rw [heq, hvalue'] at hvalue
  rw [← Nat.digits_inj_iff, ← hdigits m, ← hdigits n, hvalue]

lemma ofText_negSucc (n : ℕ) :
    ByteString.ofText (toString (Int.negSucc n)) = 0x2D :: ByteString.ofText (toString (n + 1)) := by
  have hminus : ByteString.ofText "-" = [0x2D] := ofText_eq "-"
  have htext : toString (Int.negSucc n) = "-" ++ toString (n + 1) := rfl
  rw [htext, ofText_append, hminus]
  rfl

lemma minus_notMem (n : ℕ) : 0x2D ∉ ByteString.ofText (toString n) := by
  obtain ⟨ds, -, htext, hds, -⟩ := ofText_toString n
  rw [htext, List.mem_map]
  rintro ⟨d, hd, hbyte⟩
  have hnot := digitByte_notMem ((hds d hd).trans (by decide))
  simp [hbyte] at hnot

lemma signed_injective : Function.Injective fun n : ℤ => ByteString.ofText (toString n) := by
  have hsign : ∀ m n : ℕ, ByteString.ofText (toString (Int.negSucc m)) ≠ ByteString.ofText (toString n) := by
    intro m n h
    rw [ofText_negSucc] at h
    exact minus_notMem n (h ▸ List.mem_cons_self)
  intro m n h
  cases m with
  | ofNat m =>
    cases n with
    | ofNat n => exact congrArg Int.ofNat (decimal_injective h)
    | negSucc n => exact absurd h.symm (hsign n m)
  | negSucc m =>
    cases n with
    | ofNat n => exact absurd h (hsign m n)
    | negSucc n =>
      dsimp only at h
      rw [ofText_negSucc, ofText_negSucc] at h
      have hsucc := decimal_injective (List.cons.inj h).2
      rw [Nat.succ.inj hsucc]

lemma idLeaf_inj {Tag : Type} {a b : ScalarIdentifier Tag} : (idLeaf a).value = (idLeaf b).value ↔ a = b := by
  constructor
  · intro h
    apply ScalarIdentifier.value_injective
    rw [← hx_toText a, Value.str.inj h, hx_toText]
  · rintro rfl
    rfl

lemma wordLeaf_inj {a b : UInt64} : (Leaf.number (ByteString.ofText (toString a.toNat))).value =
    (Leaf.number (ByteString.ofText (toString b.toNat))).value ↔ a = b := by
  rw [Leaf.value, Leaf.value, Value.num.injEq, decimal_injective.eq_iff, UInt64.toNat_inj]

lemma signedLeaf_inj {a b : Int64} : (Leaf.number (ByteString.ofText (toString a.toInt))).value =
    (Leaf.number (ByteString.ofText (toString b.toInt))).value ↔ a = b := by
  rw [Leaf.value, Leaf.value, Value.num.injEq, signed_injective.eq_iff, Int64.toInt_inj]

lemma textLeaf_inj {a b : ByteString} : (Leaf.text a).value = (Leaf.text b).value ↔ a = b := by
  rw [Leaf.value, Leaf.value, Value.str.injEq]

/-- What `record_json` prints of a record: all but two fields. -/
def reported (d : RecordData) : RecordData := { d with attemptGeneration := {}, policyFingerprint := [] }

lemma dependencyValue_injective : Function.Injective fun dep => leafValue (dependencyFields dep) := by
  intro x y h
  simp only [leafValue, dependencyFields, List.map_cons, List.map_nil, Value.obj.injEq, List.cons.injEq,
    Prod.mk.injEq, idLeaf_inj, textLeaf_inj, true_and, and_true] at h
  obtain ⟨hid, hgeneration, hkind, hrevision⟩ := h
  cases x
  cases y
  simp_all only

lemma requirementValue_inj {x y : CompatibilityRequirement} (hx : x.dimension.isValid = true)
    (hy : y.dimension.isValid = true) (h : leafValue (requirementFields x) = leafValue (requirementFields y)) :
    x = y := by
  simp only [leafValue, requirementFields, List.map_cons, List.map_nil, Value.obj.injEq, List.cons.injEq,
    Prod.mk.injEq, nameLeaf_inj allDistinct.dimension hx hy, textLeaf_inj, true_and, and_true] at h
  obtain ⟨hdimension, hvalue, hnote⟩ := h
  cases x
  cases y
  simp_all only

lemma idLeaves_inj {Tag : Type} {ids ids' : List (ScalarIdentifier Tag)} :
    ids.map (Leaf.value ∘ idLeaf) = ids'.map (Leaf.value ∘ idLeaf) ↔ ids = ids' :=
  List.map_inj_right fun _ _ => idLeaf_inj.mp

lemma dependencies_inj {deps deps' : List Dependency} :
    deps.map (leafValue ∘ dependencyFields) = deps'.map (leafValue ∘ dependencyFields) ↔ deps = deps' :=
  List.map_inj_right dependencyValue_injective

lemma requirements_inj {reqs reqs' : List CompatibilityRequirement} (h : ∀ req ∈ reqs, req.dimension.isValid = true)
    (h' : ∀ req ∈ reqs', req.dimension.isValid = true) :
    reqs.map (leafValue ∘ requirementFields) = reqs'.map (leafValue ∘ requirementFields) ↔ reqs = reqs' :=
  ⟨eq_of_map_eq fun x hx y hy => requirementValue_inj (h x hx) (h' y hy), fun heq => heq ▸ rfl⟩

lemma reported_of_recordValue {d d' : RecordData} (hn : RecordNamed d) (hn' : RecordNamed d')
    (h : recordValue d = recordValue d') : reported d = reported d' := by
  simp only [recordValue, recordFields, List.map_cons, List.map_nil, List.map_map, Value.obj.injEq,
    List.cons.injEq, Prod.mk.injEq, Field.value, idLeaf_inj,
    nameLeaf_inj allDistinct.subjectKind hn.subjectKind hn'.subjectKind,
    nameLeaf_inj allDistinct.evidence hn.evidence hn'.evidence,
    nameLeaf_inj allDistinct.validity hn.validity hn'.validity,
    nameLeaf_inj allDistinct.invalidationReason hn.invalidationReason hn'.invalidationReason,
    nameLeaf_inj allDistinct.reuseEligibility hn.reuseEligibility hn'.reuseEligibility,
    wordLeaf_inj, signedLeaf_inj, textLeaf_inj, Value.arr.injEq, idLeaves_inj, dependencies_inj,
    requirements_inj hn.requirements hn'.requirements, true_and, and_true] at h
  simp only [reported, h]

def storeRecords (s : ProvenanceStore) : ByteString :=
  s.ids.zipIdx.flatMap fun entry =>
    match s.find entry.1 with
    | none => []
    | some rec => if entry.2 ≠ 0 then 0x2C :: recordJson rec.d else recordJson rec.d

def storeJson (s : ProvenanceStore) : ByteString :=
  object [member "records" (0x5B :: storeRecords s ++ [0x5D]), member "size" (ByteString.ofText (toString s.size))]

def storeValue (s : ProvenanceStore) : Value :=
  .obj [(ByteString.ofText "records", .arr (s.records.toList.map fun e => recordValue e.2.d)),
    (ByteString.ofText "size", .num (ByteString.ofText (toString s.size)))]

lemma flatMap_zipIdx_separated {A : Type} (text : A → ByteString) (xs : List A) :
    (xs.zipIdx.flatMap fun e => if e.2 ≠ 0 then 0x2C :: text e.1 else text e.1) =
      [0x2C].intercalate (xs.map text) := by
  have htail : ∀ (xs : List A) (x : A) (k : ℕ), text x ++
      ((xs.zipIdx (k + 1)).flatMap fun e => if e.2 ≠ 0 then 0x2C :: text e.1 else text e.1) =
        [0x2C].intercalate ((x :: xs).map text) := by
    intro xs
    induction xs with
    | nil => simp
    | cons y xs ih =>
      intro x k
      rw [List.map_cons, List.map_cons, List.intercalate_cons_cons, ← List.map_cons, ← ih y (k + 1)]
      simp
  cases xs with
  | nil => rfl
  | cons x xs =>
    rw [← htail xs x 0]
    simp

lemma storeRecords_eq (s : ProvenanceStore) :
    storeRecords s = [0x2C].intercalate (s.records.toList.map fun e => recordJson e.2.d) := by
  have hids : s.ids = s.records.toList.map Prod.fst := ExtTreeMap.map_fst_toList_eq_keys.symm
  rw [← flatMap_zipIdx_separated, storeRecords, hids, List.zipIdx_map, List.flatMap_map]
  apply List.flatMap_congr
  intro e he
  have hfind : s.find e.1.1 = some e.1.2 :=
    ExtTreeMap.mem_toList_iff_getElem?_eq_some.mp (List.fst_mem_of_mem_zipIdx he)
  simp only [Prod.map, hfind, id]

lemma writes_recordJson (d : RecordData) : Writes 4 (recordJson d) (recordValue d) :=
  writes_object fun m hm => (readable_recordFields d m hm).imp_right Field.writes

def reportTexts : List String :=
  ["records", "size", "eligibility", "failed_dimensions", "reasons",
    " required by request but absent in provenance", " incompatible with requested environment",
    "subject has been invalidated", "subject is stale", "subject validity is unknown",
    "an ancestor of this subject has been invalidated", "an ancestor of this subject is stale",
    "no provenance record for subject "]

lemma plain_texts : PlainNames (reportTexts ++ (dimChecks {} {}).map DimCheck.what) :=
  plainNames_of_bytes (by decide)

lemma plain_report {text : String} (h : text ∈ reportTexts) : Plain (ByteString.ofText text) :=
  plain_texts text (List.mem_append_left _ h)

lemma writes_member {name : String} {depth : ℕ} {t : ByteString} {v : Value} (hname : Plain (ByteString.ofText name))
    (h : Writes depth t v) : WritesMember depth (member name t) (ByteString.ofText name, v) :=
  ⟨_, t, by simp [member, quoted], literal_plain hname, h⟩

lemma parse_storeJson (s : ProvenanceStore) : parse 6 (storeJson s) = some (storeValue s) := by
  have hrecords : Writes 5 (0x5B :: storeRecords s ++ [0x5D])
      (.arr (s.records.toList.map fun e => recordValue e.2.d)) := by
    rw [storeRecords_eq]
    exact writes_array fun e _ => writes_recordJson e.2.d
  have hsize : Writes 5 (ByteString.ofText (toString s.size)) (.num (ByteString.ofText (toString s.size))) :=
    (Leaf.writes (readable_nat s.size)).mono (by decide)
  have hwrites : Writes 6 (storeJson s) (storeValue s) := by
    apply writes_obj
    apply List.Forall₂.cons (writes_member (plain_report (by simp [reportTexts])) hrecords)
    apply List.Forall₂.cons (writes_member (plain_report (by simp [reportTexts])) hsize)
    exact List.Forall₂.nil
  exact parse_of_writes hwrites le_rfl

def exported (s : ProvenanceStore) : OrdMap StateId RecordData := s.records.map fun _ rec => reported rec.d

def RecordsNamed (s : ProvenanceStore) : Prop := ∀ rec ∈ s.snapshot.records, RecordNamed rec.d

instance (s : ProvenanceStore) : Decidable (RecordsNamed s) := List.decidableBAll _ _

lemma toList_exported (s : ProvenanceStore) :
    (exported s).toList = s.records.toList.map fun e => (e.1, reported e.2.d) := ExtTreeMap.toList_map

lemma storeJson_of_exported {s t : ProvenanceStore} (h : exported s = exported t) : storeJson s = storeJson t := by
  have hlist := congrArg ExtTreeMap.toList h
  rw [toList_exported, toList_exported] at hlist
  have htexts : ∀ s : ProvenanceStore, (s.records.toList.map fun e => recordJson e.2.d) =
      (s.records.toList.map fun e => (e.1, reported e.2.d)).map fun e => recordJson e.2 := by
    intro s
    rw [List.map_map]
    rfl
  have hsize : s.size = t.size := by
    have hlength := congrArg List.length hlist
    rwa [List.length_map, List.length_map, ExtTreeMap.length_toList, ExtTreeMap.length_toList] at hlength
  rw [storeJson, storeJson, storeRecords_eq, storeRecords_eq, htexts, htexts, hlist, hsize]

lemma exported_of_storeJson {s t : ProvenanceStore} (hs : s.Core) (ht : t.Core) (hn : RecordsNamed s)
    (hn' : RecordsNamed t) (h : storeJson s = storeJson t) : exported s = exported t := by
  have hparse := parse_storeJson s
  rw [h, parse_storeJson t] at hparse
  have hvalue : (s.records.toList.map fun e => recordValue e.2.d) =
      t.records.toList.map fun e => recordValue e.2.d := by
    have hobj := Option.some.inj hparse
    simp only [storeValue, Value.obj.injEq, List.cons.injEq, Prod.mk.injEq, Value.arr.injEq, true_and] at hobj
    exact hobj.1.symm
  rw [← ExtTreeMap.toList_inj, toList_exported, toList_exported]
  refine map_eq_of_map_eq (fun a ha b hb hab => ?_) hvalue
  have hfind := ExtTreeMap.mem_toList_iff_getElem?_eq_some.mp ha
  have hfind' := ExtTreeMap.mem_toList_iff_getElem?_eq_some.mp hb
  have hreported := reported_of_recordValue (hn _ ((mem_snapshot s _).mpr ⟨_, hfind⟩))
    (hn' _ ((mem_snapshot t _).mpr ⟨_, hfind'⟩)) hab
  have hkey : a.1 = b.1 := by
    rw [← (hs.keyed _ _ hfind).1, ← (ht.keyed _ _ hfind').1]
    exact congrArg (fun d => d.subjectId) hreported
  exact Prod.ext hkey hreported

lemma sameLinks_of_exported {s t : ProvenanceStore} (h : exported s = exported t) : s.SameLinks t := by
  intro x
  have hx := congrArg (fun m : OrdMap StateId RecordData => m[x]?) h
  simp only [exported, ExtTreeMap.getElem?_map] at hx
  have hlinks : ∀ r : Option ProvenanceRecord, r.map links = (r.map fun rec => reported rec.d).map fun d =>
      (d.provenanceId, d.inputStates, d.parentProvenance) := by
    intro r
    rw [Option.map_map]
    rfl
  rw [hlinks, hlinks, hx]

lemma checkReuse_of_exported {s t : ProvenanceStore} (h : exported s = exported t) (hgraph : s.graph = t.graph)
    (hstatus : s.status = t.status) (x : StateId) (req : ReuseRequest) : s.checkReuse x req = t.checkReuse x req := by
  have hx := congrArg (fun m : OrdMap StateId RecordData => m[x]?) h
  simp only [exported, ExtTreeMap.getElem?_map] at hx
  have hreuse : ∀ rec : ProvenanceRecord, evaluateReuse rec req = evaluateReuse ⟨reported rec.d⟩ req := fun _ => rfl
  have hescalate : s.escalate = t.escalate := by
    funext anc d
    rw [escalate, escalate, anyStatus, anyStatus, anyStatus, anyStatus, hstatus]
  rw [checkReuse, checkReuse, hstatus, hgraph, hescalate]
  cases hs : s.records[x]? with
  | none =>
    rw [hs, Option.map_none, eq_comm, Option.map_eq_none_iff] at hx
    rw [hx]
  | some rec =>
    rw [hs, Option.map_some, eq_comm, Option.map_eq_some_iff] at hx
    obtain ⟨rec', ht, hrec⟩ := hx
    rw [ht]
    dsimp only
    rw [hreuse rec, hreuse rec', hrec]

theorem storeJson_lossless {s t : ProvenanceStore} (hs : Reachable s) (ht : Reachable t) (hn : RecordsNamed s)
    (hn' : RecordsNamed t) :
    parse 6 (storeJson s) = some (storeValue s) ∧
    (storeJson s = storeJson t ↔
      ∀ x, (s.find x).map (fun rec => reported rec.d) = (t.find x).map fun rec => reported rec.d) ∧
    (storeJson s = storeJson t → s.graph = t.graph ∧ s.provToState = t.provToState ∧
      (s.status = t.status → ∀ x req, s.checkReuse x req = t.checkReuse x req)) ∧
    ∀ subj, storeJson (s.invalidate subj).2 = storeJson s := by
  have hcore := hs.live.toCore
  have hcore' := ht.live.toCore
  refine ⟨parse_storeJson s, ⟨fun h x => ?_, fun h => ?_⟩, fun h => ?_, fun subj => ?_⟩
  · have hx := congrArg (fun m : OrdMap StateId RecordData => m[x]?) (exported_of_storeJson hcore hcore' hn hn' h)
    simp only [exported, ExtTreeMap.getElem?_map] at hx
    exact hx
  · apply storeJson_of_exported
    apply ExtTreeMap.ext_getElem?
    intro x
    rw [exported, exported, ExtTreeMap.getElem?_map, ExtTreeMap.getElem?_map]
    exact h x
  · have hexported := exported_of_storeJson hcore hcore' hn hn' h
    have hlinks := sameLinks_of_exported hexported
    have hgraph := hlinks.graph_eq hcore hcore'
    exact ⟨hgraph, hlinks.provToState_eq hcore hcore', checkReuse_of_exported hexported hgraph⟩
  · obtain ⟨status, byValidity, he⟩ := s.invalidate_frame subj
    rw [he]
    rfl

theorem storeJson_noted :
    storeJson (pair (.produced 1)) ≠ storeJson (pair { RecordData.produced 1 with note := [0x6E] }) := by
  intro h
  have hfind := (storeJson_lossless (reachable_pair (.produced 1))
    (reachable_pair { RecordData.produced 1 with note := [0x6E] }) (by decide) (by decide)).2.1.mp h ⟨1⟩
  have hnote := congrArg (Option.map fun d => d.note) hfind
  rw [Option.map_map, Option.map_map] at hnote
  exact absurd hnote (by decide)

/-! A verdict. The reasons are printed as they are. -/

def decisionJson (d : ReuseDecision) : ByteString :=
  object [member "eligibility" (nameLeaf (.named d.eligibility)).print,
    member "failed_dimensions" (array (d.failedDimensions.map fun dim => (nameLeaf (.named dim)).print)),
    member "reasons" (array (d.reasons.map fun reason => (Leaf.plain (ByteString.ofText reason)).print))]

def decisionValue (d : ReuseDecision) : Value :=
  .obj [(ByteString.ofText "eligibility", (nameLeaf (.named d.eligibility)).value),
    (ByteString.ofText "failed_dimensions", .arr (d.failedDimensions.map fun dim => (nameLeaf (.named dim)).value)),
    (ByteString.ofText "reasons", .arr (d.reasons.map fun reason => (Leaf.plain (ByteString.ofText reason)).value))]

lemma plain_append {a b : String} (ha : Plain (ByteString.ofText a)) (hb : Plain (ByteString.ofText b)) :
    Plain (ByteString.ofText (a ++ b)) := by
  rw [ofText_append]
  exact List.forall_mem_append.mpr ⟨ha, hb⟩

lemma plain_dimCheck {t : Tally} {c : DimCheck} (ht : PlainNames t.reasons) (hc : Plain (ByteString.ofText c.what)) :
    PlainNames (t.dimCheck c).reasons := by
  have habsent : Plain (ByteString.ofText " required by request but absent in provenance") :=
    plain_report (by simp [reportTexts])
  have hmismatch : Plain (ByteString.ofText " incompatible with requested environment") :=
    plain_report (by simp [reportTexts])
  have hmore : ∀ reason, Plain (ByteString.ofText reason) → PlainNames (t.reasons ++ [reason]) := by
    intro reason h
    exact List.forall_mem_append.mpr ⟨ht, List.forall_mem_singleton.mpr h⟩
  rw [Tally.dimCheck]
  split
  · exact ht
  split
  · exact hmore _ (plain_append hc habsent)
  split
  · exact hmore _ (plain_append hc hmismatch)
  · exact ht

lemma plain_foldl_dimCheck {checks : List DimCheck} (h : PlainNames (checks.map DimCheck.what)) {t : Tally}
    (ht : PlainNames t.reasons) : PlainNames (checks.foldl Tally.dimCheck t).reasons := by
  induction checks generalizing t with
  | nil => exact ht
  | cons c checks ih =>
    obtain ⟨hc, hchecks⟩ := List.forall_mem_cons.mp h
    exact ih hchecks (plain_dimCheck ht hc)

lemma plain_evaluateReuse (rec : ProvenanceRecord) (req : ReuseRequest) :
    PlainNames (evaluateReuse rec req).reasons := by
  have hnames : (dimChecks rec.d req).map DimCheck.what = (dimChecks {} {}).map DimCheck.what := rfl
  have hwhat : PlainNames ((dimChecks {} {}).map DimCheck.what) := fun text h =>
    plain_texts text (List.mem_append_right _ h)
  have hinvalidated : PlainNames ["subject has been invalidated"] :=
    List.forall_mem_singleton.mpr (plain_report (by simp [reportTexts]))
  have hstale : PlainNames ["subject is stale"] :=
    List.forall_mem_singleton.mpr (plain_report (by simp [reportTexts]))
  have htally : PlainNames ((dimChecks rec.d req).foldl Tally.dimCheck {}).reasons :=
    plain_foldl_dimCheck (hnames ▸ hwhat) (List.forall_mem_nil _)
  have hite : ∀ {c : Prop} [Decidable c] {d d' : ReuseDecision}, PlainNames d.reasons → PlainNames d'.reasons →
      PlainNames (if c then d else d').reasons := by
    intro c _ d d' hd hd'
    split
    · exact hd
    · exact hd'
  rw [evaluateReuse]
  refine hite ?_ (hite ?_ (hite htally (hite htally (hite htally htally))))
  · dsimp only
    split
    · exact hinvalidated
    · exact htally
  · dsimp only
    split
    · exact hstale
    · exact htally

lemma plain_checkReuse (s : ProvenanceStore) (x : StateId) (req : ReuseRequest) :
    PlainNames (s.checkReuse x req).reasons := by
  have hone : ∀ reason ∈ reportTexts, PlainNames [reason] := fun reason h =>
    List.forall_mem_singleton.mpr (plain_report h)
  have hunknown : PlainNames ["no provenance record for subject " ++ x.toText] := by
    have hfront : Plain (ByteString.ofText "no provenance record for subject ") :=
      plain_report (by simp [reportTexts])
    exact List.forall_mem_singleton.mpr (plain_append hfront (readable_idLeaf x))
  rw [checkReuse]
  cases s.records[x]? with
  | none => exact hunknown
  | some rec =>
    dsimp only
    cases hstatus : s.status[x]?.bind statusDecision with
    | some d =>
      obtain ⟨st, -, hd⟩ := Option.bind_eq_some_iff.mp hstatus
      rw [statusDecision] at hd
      split at hd
      · cases hd
        exact hone _ (by simp [reportTexts])
      split at hd
      · cases hd
        exact hone _ (by simp [reportTexts])
      split at hd
      · cases hd
        exact hone _ (by simp [reportTexts])
      · cases hd
    | none =>
      dsimp only
      rw [escalate]
      split
      · exact hone _ (by simp [reportTexts])
      split
      · exact hone _ (by simp [reportTexts])
      · exact plain_evaluateReuse rec req

lemma ofText_injective : Function.Injective ByteString.ofText := by
  intro a b h
  rw [ByteString.ofText, ByteString.ofText, String.toUTF8_eq_toByteArray, String.toUTF8_eq_toByteArray,
    ByteArray.toList, ByteArray.toList, toList_loop, toList_loop] at h
  apply String.toByteArray_inj.mp
  apply ByteArray.ext
  exact Array.toList_inj.mp h

lemma decision_of_value {d d' : ReuseDecision} (h : decisionValue d = decisionValue d') : d = d' := by
  have hnamed : ∀ {E : Type} [EnumClass E] (e : E), (EnumValue.named e).isValid = true :=
    fun e => (EnumValue.isValid_iff _).mpr ⟨e, rfl⟩
  simp only [decisionValue, Value.obj.injEq, List.cons.injEq, Prod.mk.injEq, Value.arr.injEq, true_and,
    and_true, nameLeaf_inj allDistinct.reuseEligibility (hnamed _) (hnamed _), EnumValue.named.injEq] at h
  obtain ⟨heligibility, hdimensions, hreasons⟩ := h
  have hfailed := List.map_inj_right (fun a b hab => EnumValue.named.inj
    ((nameLeaf_inj allDistinct.dimension (hnamed a) (hnamed b)).mp hab)) |>.mp hdimensions
  have htexts := List.map_inj_right (fun a b hab => ofText_injective (Value.str.inj hab)) |>.mp hreasons
  cases d
  cases d'
  simp_all only

lemma parse_decisionJson {d : ReuseDecision} (h : PlainNames d.reasons) :
    parse 3 (decisionJson d) = some (decisionValue d) := by
  have heligibility : Writes 2 (nameLeaf (.named d.eligibility)).print (nameLeaf (.named d.eligibility)).value := by
    exact (Leaf.writes (readable_nameLeaf allPlain.reuseEligibility _)).mono (by decide)
  have hwrites : Writes 3 (decisionJson d) (decisionValue d) := by
    apply writes_obj
    apply List.Forall₂.cons (writes_member (plain_report (by simp [reportTexts])) heligibility)
    apply List.Forall₂.cons (writes_member (plain_report (by simp [reportTexts])) (writes_array fun dim _ =>
      Leaf.writes (readable_nameLeaf allPlain.dimension (.named dim))))
    apply List.Forall₂.cons (writes_member (plain_report (by simp [reportTexts])) (writes_array fun reason hr =>
      Leaf.writes (l := .plain (ByteString.ofText reason)) (h reason hr)))
    exact List.Forall₂.nil
  exact parse_of_writes hwrites le_rfl

theorem checkReuse_reported (s : ProvenanceStore) (x : StateId) (req : ReuseRequest) :
    parse 3 (decisionJson (s.checkReuse x req)) = some (decisionValue (s.checkReuse x req)) ∧
    ∀ (t : ProvenanceStore) (y : StateId) (req' : ReuseRequest),
      decisionJson (s.checkReuse x req) = decisionJson (t.checkReuse y req') →
        s.checkReuse x req = t.checkReuse y req' := by
  have hparse := fun (s : ProvenanceStore) x req => parse_decisionJson (plain_checkReuse s x req)
  refine ⟨hparse s x req, fun t y req' h => decision_of_value ?_⟩
  have hs := hparse s x req
  rw [h, hparse t y req'] at hs
  exact (Option.some.inj hs).symm

def quotedText (front : String) (t : ByteString) : ByteString :=
  ByteString.ofText front ++ ByteString.ofText " '" ++ t ++ ByteString.ofText "'"

def idText {Tag : Type} (front : String) (id : ScalarIdentifier Tag) : ByteString :=
  ByteString.ofText (front ++ id.toText)

def modelText (d : RecordData) : ByteString :=
  if d.modelId.valid then
    idText "\n  model: " d.modelId ++ idText " gen " d.modelGeneration ++ quotedText " revision" d.modelRevision
  else []

def adapterText (d : RecordData) : ByteString :=
  if d.adapterId.valid then
    idText "\n  adapter: " d.adapterId ++ idText " gen " d.adapterGeneration ++
      quotedText " revision" d.adapterRevision
  else []

def compositionText (d : RecordData) : ByteString :=
  if d.compositionId.valid then
    idText "\n  composition: " d.compositionId ++ quotedText " fp" d.compositionFingerprint
  else []

def runtimeText (d : RecordData) : ByteString :=
  if d.runtimeId.valid then
    idText "\n  runtime: " d.runtimeId ++ idText " backend " d.backendId ++ idText " toolchain " d.toolchainId
  else []

def deviceText (d : RecordData) : ByteString :=
  if !d.architecture.isEmpty || !d.computeCapability.isEmpty then
    idText "\n  device: " d.deviceId ++ quotedText " arch" d.architecture ++ quotedText " cc" d.computeCapability
  else []

def tensorText (d : RecordData) : ByteString :=
  if !d.dtype.isEmpty then
    quotedText "\n  tensor: dtype" d.dtype ++ quotedText " layout" d.layout ++ quotedText " shape" d.shape
  else []

def listText {A : Type} (front : String) (text : A → ByteString) (as : List A) : ByteString :=
  if as.isEmpty then [] else ByteString.ofText front ++ as.flatMap text

def recordText (d : RecordData) : ByteString :=
  idText "State " d.subjectId ++ ByteString.ofText (" (" ++ d.subjectKind.nameOf ++ ")") ++
    idText " [state generation " d.stateGeneration ++ ByteString.ofText "]" ++ modelText d ++ adapterText d ++
    compositionText d ++ runtimeText d ++ deviceText d ++ tensorText d ++ idText "\n  producer: " d.producerId ++
    idText " gen " d.producerGeneration ++ idText " execution " d.executionId ++
    listText "\n  inputs:" (idText " ") d.inputStates ++ listText "\n  parents:" (idText " ") d.parentProvenance ++
    listText "\n  dependencies:"
      (fun dep => idText " " dep.id ++ ByteString.ofText "(" ++ dep.kind ++ ByteString.ofText ")") d.dependencies ++
    listText "\n  requirements:"
      (fun req => ByteString.ofText (" " ++ req.dimension.nameOf ++ "=") ++ req.requiredValue) d.requirements ++
    ByteString.ofText ("\n  evidence: " ++ d.evidence.nameOf ++ " validity: " ++ d.validity.nameOf) ++
    idText " provenance_id " d.provenanceId ++ idText " gen " d.provenanceGeneration

def reuseText (d : ReuseDecision) : String :=
  let name := (EnumValue.named d.eligibility).nameOf
  if d.reasons.isEmpty then name else name ++ " (" ++ "; ".intercalate d.reasons ++ ")"

def chainText (s : ProvenanceStore) (id : StateId) : ByteString :=
  let ancestors := s.ancestors id
  idText "Derivation path to " id ++ ByteString.ofText ":" ++
    if ancestors.isEmpty then ByteString.ofText " (root)" else ancestors.flatMap (idText "\n  <- ")

end StateProvenance.Explain
