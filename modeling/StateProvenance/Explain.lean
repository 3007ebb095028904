import StateProvenance.Record
import StateProvenance.PrintedNumbers
import StateProvenance.Library.Json

/-! The JSON text of a record. Free text is escaped, an identifier or a name is written between quotes as it
is. -/

namespace StateProvenance.Explain

open Library.Json

def hex4 (v : ℕ) : ByteString := (List.range 4).map fun i => digitByte (v / 16 ^ (3 - i) % 16)

def escapeByte (c : UInt8) : ByteString :=
  if c = 0x22 then [0x5C, 0x22]
  else if c = 0x5C then [0x5C, 0x5C]
  else if c = 0x0A then [0x5C, 0x6E]
  else if c = 0x0D then [0x5C, 0x72]
  else if c = 0x09 then [0x5C, 0x74]
  else if c < 0x20 then 0x5C :: 0x75 :: hex4 c.toNat
  else [c]

def jsonEscape (s : ByteString) : ByteString := s.flatMap escapeByte

inductive Leaf
  | plain (t : ByteString)
  | text (s : ByteString)
  | number (t : ByteString)

inductive Field
  | leaf (l : Leaf)
  | leaves (ls : List Leaf)
  | objects (os : List (List (String × Leaf)))

def quoted (t : ByteString) : ByteString := 0x22 :: t ++ [0x22]

def member (name : String) (t : ByteString) : ByteString := quoted (ByteString.ofText name) ++ 0x3A :: t

def object (members : List ByteString) : ByteString := 0x7B :: [0x2C].intercalate members ++ [0x7D]

def array (items : List ByteString) : ByteString := 0x5B :: [0x2C].intercalate items ++ [0x5D]

def Leaf.print : Leaf → ByteString
  | .plain t => quoted t
  | .text s => quoted (jsonEscape s)
  | .number t => t

def leafObject (o : List (String × Leaf)) : ByteString := object (o.map fun m => member m.1 m.2.print)

def Field.print : Field → ByteString
  | .leaf l => l.print
  | .leaves ls => array (ls.map Leaf.print)
  | .objects os => array (os.map leafObject)

def idLeaf {Tag : Type} (id : ScalarIdentifier Tag) : Leaf := .plain (ByteString.ofText id.toText)

def nameLeaf {E : Type} [EnumClass E] (v : EnumValue E) : Leaf := .plain (ByteString.ofText v.nameOf)

def dependencyFields (dep : Dependency) : List (String × Leaf) :=
  [("id", idLeaf dep.id), ("generation", idLeaf dep.generation), ("kind", .text dep.kind),
    ("revision", .text dep.revision)]

def requirementFields (req : CompatibilityRequirement) : List (String × Leaf) :=
  [("dimension", nameLeaf req.dimension), ("value", .text req.requiredValue), ("note", .text req.note)]

def recordFields (d : RecordData) : List (String × Field) :=
  [("provenance_id", .leaf (idLeaf d.provenanceId)),
    ("provenance_generation", .leaf (idLeaf d.provenanceGeneration)),
    ("subject_id", .leaf (idLeaf d.subjectId)),
    ("subject_kind", .leaf (nameLeaf d.subjectKind)),
    ("state_generation", .leaf (idLeaf d.stateGeneration)),
    ("producer_id", .leaf (idLeaf d.producerId)),
    ("producer_generation", .leaf (idLeaf d.producerGeneration)),
    ("execution_id", .leaf (idLeaf d.executionId)),
    ("attempt_id", .leaf (idLeaf d.attemptId)),
    ("created_at", .leaf (.number (ByteString.ofText (toString d.createdAt.toInt)))),
    ("model_id", .leaf (idLeaf d.modelId)),
    ("model_generation", .leaf (idLeaf d.modelGeneration)),
    ("model_revision", .leaf (.text d.modelRevision)),
    ("tokenizer", .leaf (.text d.tokenizer)),
    ("adapter_id", .leaf (idLeaf d.adapterId)),
    ("adapter_generation", .leaf (idLeaf d.adapterGeneration)),
    ("adapter_revision", .leaf (.text d.adapterRevision)),
    ("composition_id", .leaf (idLeaf d.compositionId)),
    ("composition_generation", .leaf (idLeaf d.compositionGeneration)),
    ("composition_fingerprint", .leaf (.text d.compositionFingerprint)),
    ("runtime_id", .leaf (idLeaf d.runtimeId)),
    ("runtime_generation", .leaf (idLeaf d.runtimeGeneration)),
    ("artifact_generation", .leaf (idLeaf d.artifactGeneration)),
    ("backend_id", .leaf (idLeaf d.backendId)),
    ("toolchain_id", .leaf (idLeaf d.toolchainId)),
    ("device_id", .leaf (idLeaf d.deviceId)),
    ("architecture", .leaf (.text d.architecture)),
    ("compute_capability", .leaf (.text d.computeCapability)),
    ("abi", .leaf (.text d.abi)),
    ("dtype", .leaf (.text d.dtype)),
    ("layout", .leaf (.text d.layout)),
    ("shape", .leaf (.text d.shape)),
    ("content_digest", .leaf (.text d.contentDigest)),
    ("policy_id", .leaf (idLeaf d.policyId)),
    ("policy_generation", .leaf (idLeaf d.policyGeneration)),
    ("coordinator_epoch", .leaf (.number (ByteString.ofText (toString d.coordinatorEpoch.toNat)))),
    ("worker_id", .leaf (idLeaf d.workerId)),
    ("worker_boot", .leaf (idLeaf d.workerBoot)),
    ("evidence", .leaf (nameLeaf d.evidence)),
    ("validity", .leaf (nameLeaf d.validity)),
    ("invalidation_reason", .leaf (nameLeaf d.invalidationReason)),
    ("reuse_eligibility", .leaf (nameLeaf d.reuseEligibility)),
    ("input_states", .leaves (d.inputStates.map idLeaf)),
    ("parent_provenance", .leaves (d.parentProvenance.map idLeaf)),
    ("dependencies", .objects (d.dependencies.map dependencyFields)),
    ("requirements", .objects (d.requirements.map requirementFields)),
    ("note", .leaf (.text d.note))]

def recordJson (d : RecordData) : ByteString := object ((recordFields d).map fun m => member m.1 m.2.print)

def emittedEscapes : List ByteString :=
  [[0x5C, 0x22], [0x5C, 0x5C], [0x5C, 0x6E], [0x5C, 0x72], [0x5C, 0x74]] ++
    ((List.range 0x20).filter fun v => v ≠ 0x09 ∧ v ≠ 0x0A ∧ v ≠ 0x0D).map fun v =>
      [0x5C, 0x75, 0x30, 0x30, digitByte (v / 16), digitByte (v % 16)]

def Bare (b : UInt8) : Prop := 0x20 ≤ b ∧ b ≠ 0x22 ∧ b ≠ 0x5C

instance (b : UInt8) : Decidable (Bare b) := inferInstanceAs (Decidable (_ ∧ _))

lemma escapeByte_of_bare {b : UInt8} (hb : Bare b) : escapeByte b = [b] := by
  obtain ⟨hle, hquote, hslash⟩ := hb
  have hcontrol : ¬ b < 0x20 := UInt8.not_lt.mpr hle
  have hne : ∀ c : UInt8, c < 0x20 → b ≠ c := fun c hc hb => hcontrol (hb ▸ hc)
  rw [escapeByte, if_neg hquote, if_neg hslash, if_neg (hne _ (by decide)), if_neg (hne _ (by decide)),
    if_neg (hne _ (by decide)), if_neg hcontrol]

lemma bare_or_escaped (b : UInt8) :
    Bare b ∨ (escapeByte b ∈ emittedEscapes ∧ readChar (escapeByte b) = some ([b], [])) := by
  by_cases hquote : b = 0x22
  · subst hquote
    exact Or.inr (by decide)
  by_cases hslash : b = 0x5C
  · subst hslash
    exact Or.inr (by decide)
  by_cases hcontrol : b < 0x20
  · have hall : ∀ v : Fin 32, escapeByte v.val.toUInt8 ∈ emittedEscapes ∧
        readChar (escapeByte v.val.toUInt8) = some ([v.val.toUInt8], []) := by decide
    have hb : b.toNat.toUInt8 = b := by simp
    right
    rw [← hb]
    exact hall ⟨b.toNat, UInt8.lt_iff_toNat_lt.mp hcontrol⟩
  · exact Or.inl ⟨UInt8.not_lt.mp hcontrol, hquote, hslash⟩

lemma faithful_escapeByte : Faithful escapeByte := by
  intro b
  rcases bare_or_escaped b with hb | ⟨-, h⟩
  · rw [escapeByte_of_bare hb, readChar, if_neg hb.2.2, if_neg (not_or.mpr ⟨UInt8.not_lt.mpr hb.1, hb.2.1⟩)]
  · exact h

lemma pending_escapeByte (b : UInt8) : pending (escapeByte b) = false := by
  have hall : ∀ e ∈ emittedEscapes, pending e = false := by decide
  rcases bare_or_escaped b with hb | ⟨hmem, -⟩
  · simp [escapeByte_of_bare hb, pending, hb.2.2]
  · exact hall _ hmem

lemma le_of_mem_escapeByte {b x : UInt8} (hx : x ∈ escapeByte b) : 0x20 ≤ x := by
  have hall : ∀ e ∈ emittedEscapes, e.all fun x => 0x20 ≤ x := by decide
  rcases bare_or_escaped b with hb | ⟨hmem, -⟩
  · rw [escapeByte_of_bare hb, List.mem_singleton] at hx
    exact hx ▸ hb.1
  · exact of_decide_eq_true (List.all_eq_true.mp (hall _ hmem) x hx)

lemma escapeByte_split {b x : UInt8} {u v : ByteString} (h : escapeByte b = u ++ x :: v) :
    (x = 0x22 → pending u = true) ∧
      (x = 0x5C → pending u = true ∨ u = [] ∧ escapeByte b ∈ emittedEscapes) := by
  have hall : ∀ e ∈ emittedEscapes, ∀ i ∈ List.range e.length,
      (e[i]? = some 0x22 → pending (e.take i) = true) ∧
      (e[i]? = some 0x5C → pending (e.take i) = true ∨ i = 0) := by decide
  rcases bare_or_escaped b with hb | ⟨hmem, -⟩
  · have hx : x = b := by
      rw [escapeByte_of_bare hb] at h
      exact List.mem_singleton.mp (h ▸ List.mem_append_right u List.mem_cons_self)
    subst hx
    exact ⟨fun hx => absurd hx hb.2.1, fun hx => absurd hx hb.2.2⟩
  · have hsplit := hall _ hmem u.length
    have hlt : u.length ∈ List.range (u ++ x :: v).length := by simp
    have hget : (u ++ x :: v)[u.length]? = some x := by simp
    rw [h, hget, List.take_left, List.length_eq_zero_iff] at hsplit
    obtain ⟨hquote, hslash⟩ := hsplit hlt
    exact ⟨fun hx => hquote (congrArg some hx), fun hx => (hslash (congrArg some hx)).imp_right fun hu => ⟨hu, hmem⟩⟩

lemma readString_jsonEscape (s rest : ByteString) : readString (jsonEscape s ++ 0x22 :: rest) = some (s, rest) :=
  readString_flatMap faithful_escapeByte s rest

lemma jsonEscape_injective : Function.Injective jsonEscape := flatMap_injective faithful_escapeByte

lemma le_of_mem_jsonEscape {s : ByteString} {x : UInt8} (hx : x ∈ jsonEscape s) : 0x20 ≤ x := by
  obtain ⟨b, -, hb⟩ := List.mem_flatMap.mp hx
  exact le_of_mem_escapeByte hb

lemma quote_escaped {s front back : ByteString} (h : jsonEscape s = front ++ 0x22 :: back) :
    pending front = true := by
  obtain ⟨b, -, u, v, after, hb, hpending, -⟩ := pending_of_flatMap pending_escapeByte h
  rw [hpending]
  exact (escapeByte_split hb).1 rfl

lemma backslash_escapes {s front back : ByteString} (h : jsonEscape s = front ++ 0x5C :: back) :
    pending front = true ∨ ∃ e ∈ emittedEscapes, ∃ after, 0x5C :: back = e ++ after := by
  obtain ⟨b, -, u, v, after, hb, hpending, rfl⟩ := pending_of_flatMap pending_escapeByte h
  rw [hpending]
  rcases (escapeByte_split hb).2 rfl with hu | ⟨rfl, hmem⟩
  · exact Or.inl hu
  · refine Or.inr ⟨_, hmem, after, ?_⟩
    rw [hb]
    rfl

def Leaf.value : Leaf → Value
  | .plain t => .str t
  | .text s => .str s
  | .number t => .num t

def leafValue (o : List (String × Leaf)) : Value := .obj (o.map fun m => (ByteString.ofText m.1, m.2.value))

def Field.value : Field → Value
  | .leaf l => l.value
  | .leaves ls => .arr (ls.map Leaf.value)
  | .objects os => .arr (os.map leafValue)

def recordValue (d : RecordData) : Value :=
  .obj ((recordFields d).map fun m => (ByteString.ofText m.1, m.2.value))

def Plain (t : ByteString) : Prop := ∀ b ∈ t, Bare b

instance (t : ByteString) : Decidable (Plain t) := List.decidableBAll _ t

lemma literal_plain {t : ByteString} (h : Plain t) : Literal t t := by
  intro rest
  have hself : jsonEscape t = t := by
    rw [jsonEscape, List.flatMap_congr fun b hb => escapeByte_of_bare (h b hb), List.flatMap_singleton']
  have hread := readString_jsonEscape t rest
  rwa [hself] at hread

def Leaf.Readable : Leaf → Prop
  | .plain t => Plain t
  | .text _ => True
  | .number t => t ≠ [] ∧ ∀ b ∈ t, isNumberByte b = true

def Field.Readable : Field → Prop
  | .leaf l => l.Readable
  | .leaves ls => ∀ l ∈ ls, l.Readable
  | .objects os => ∀ o ∈ os, ∀ m ∈ o, Plain (ByteString.ofText m.1) ∧ m.2.Readable

lemma Leaf.writes {l : Leaf} (h : l.Readable) : Writes 1 l.print l.value := by
  cases l with
  | plain t => exact writes_str (literal_plain h)
  | text s => exact writes_str (readString_jsonEscape s)
  | number t => exact writes_num h.1 h.2

lemma writes_object {A : Type} {print : A → ByteString} {value : A → Value} {depth : ℕ}
    {ms : List (String × A)} (h : ∀ m ∈ ms, Plain (ByteString.ofText m.1) ∧ Writes depth (print m.2) (value m.2)) :
    Writes (depth + 1) (object (ms.map fun m => member m.1 (print m.2)))
      (.obj (ms.map fun m => (ByteString.ofText m.1, value m.2))) := by
  apply writes_obj
  rw [List.forall₂_map_left_iff, List.forall₂_map_right_iff, List.forall₂_same]
  intro m hm
  obtain ⟨hname, hvalue⟩ := h m hm
  refine ⟨_, print m.2, ?_, literal_plain hname, hvalue⟩
  simp [member, quoted]

lemma writes_array {A : Type} {print : A → ByteString} {value : A → Value} {depth : ℕ} {as : List A}
    (h : ∀ a ∈ as, Writes depth (print a) (value a)) :
    Writes (depth + 1) (array (as.map print)) (.arr (as.map value)) := by
  apply writes_arr
  rw [List.forall₂_map_left_iff, List.forall₂_map_right_iff, List.forall₂_same]
  exact h

lemma Field.writes {f : Field} (h : f.Readable) : Writes 3 f.print f.value := by
  cases f with
  | leaf l => exact (Leaf.writes h).mono (by decide)
  | leaves ls =>
    have harray : Writes 2 (array (ls.map Leaf.print)) (.arr (ls.map Leaf.value)) :=
      writes_array fun l hl => Leaf.writes (h l hl)
    exact harray.mono (by decide)
  | objects os =>
    exact writes_array fun o ho => writes_object fun m hm => ⟨(h o ho m hm).1, Leaf.writes (h o ho m hm).2⟩

lemma plain_digits {ds : List ℕ} (h : ∀ d ∈ ds, d < 16) : Plain (ds.map digitByte) := by
  have hall : ∀ d : Fin 16, Bare (digitByte d) := by decide
  intro b hb
  obtain ⟨d, hd, rfl⟩ := List.mem_map.mp hb
  exact hall ⟨d, h d hd⟩

lemma readable_idLeaf {Tag : Type} (id : ScalarIdentifier Tag) : (idLeaf id).Readable := by
  have hfront : Plain [0x30, 0x78] := by decide
  rw [idLeaf, Leaf.Readable, ofText_toText]
  exact List.forall_mem_append.mpr ⟨hfront, plain_digits (hexDigits_lt id.value)⟩

def PlainNames (names : List String) : Prop := ∀ name ∈ names, Plain (ByteString.ofText name)

instance (names : List String) : Decidable (PlainNames names) := List.decidableBAll _ names

def enumNames (E : Type) [EnumClass E] : List String := "Unknown" :: (EnumClass.table (E := E)).map Prod.snd

structure AllPlain : Prop where
  record : PlainNames ((recordFields {}).map Prod.fst)
  dependency : PlainNames ((dependencyFields {}).map Prod.fst)
  requirement : PlainNames ((requirementFields { dimension := .named .unknown }).map Prod.fst)
  subjectKind : PlainNames (enumNames SubjectKind)
  evidence : PlainNames (enumNames EvidenceClass)
  validity : PlainNames (enumNames ValidityState)
  invalidationReason : PlainNames (enumNames InvalidationReason)
  reuseEligibility : PlainNames (enumNames ReuseEligibility)
  dimension : PlainNames (enumNames CompatibilityDimension)

lemma plainNames_of_bytes {names : List String}
    (h : (names.all fun name => name.toUTF8.data.toList.all fun b =>
      0x20 ≤ b.toNat ∧ b.toNat ≠ 0x22 ∧ b.toNat ≠ 0x5C) = true) : PlainNames names := by
  intro name hname b hb
  rw [ofText_eq] at hb
  obtain ⟨hle, hquote, hslash⟩ := of_decide_eq_true (List.all_eq_true.mp (List.all_eq_true.mp h name hname) b hb)
  refine ⟨hle, ?_, ?_⟩
  · rintro rfl
    exact hquote rfl
  · rintro rfl
    exact hslash rfl

lemma allPlain : AllPlain := by
  constructor <;> exact plainNames_of_bytes (by decide)

lemma readable_nameLeaf {E : Type} [EnumClass E] (h : PlainNames (enumNames E)) (v : EnumValue E) :
    (nameLeaf v).Readable := by
  rw [nameLeaf, Leaf.Readable, EnumValue.nameOf]
  cases hfind : (EnumClass.table (E := E)).find? fun entry => EnumValue.named entry.1 = v with
  | none => exact h _ List.mem_cons_self
  | some entry =>
    exact h _ (List.mem_cons_of_mem _ (List.mem_map_of_mem (List.mem_of_find?_eq_some hfind)))

lemma readable_nat (n : ℕ) : (Leaf.number (ByteString.ofText (toString n))).Readable := by
  have hall : ∀ d : Fin 10, isNumberByte (digitByte d) = true := by decide
  obtain ⟨ds, hne, htext, hds, -⟩ := ofText_toString n
  rw [Leaf.Readable, htext]
  refine ⟨by simp [hne], ?_⟩
  intro b hb
  obtain ⟨d, hd, rfl⟩ := List.mem_map.mp hb
  exact hall ⟨d, hds d hd⟩

lemma readable_int (n : ℤ) : (Leaf.number (ByteString.ofText (toString n))).Readable := by
  cases n with
  | ofNat n => exact readable_nat n
  | negSucc n =>
    have hminus : ByteString.ofText "-" = [0x2D] := ofText_eq "-"
    have htext : ByteString.ofText (toString (Int.negSucc n)) = [0x2D] ++ ByteString.ofText (toString (n + 1)) := by
      rw [← hminus, ← ofText_append]
      rfl
    rw [htext]
    exact ⟨by simp, List.forall_mem_cons.mpr ⟨rfl, (readable_nat (n + 1)).2⟩⟩

lemma plain_of_names {A : Type} {ms ns : List (String × A)} (h : PlainNames (ns.map Prod.fst))
    (hnames : ms.map Prod.fst = ns.map Prod.fst) {m : String × A} (hm : m ∈ ms) : Plain (ByteString.ofText m.1) := by
  have hmem := List.mem_map_of_mem (f := Prod.fst) hm
  rw [hnames] at hmem
  exact h m.1 hmem

lemma readable_text (s : ByteString) : (Leaf.text s).Readable := trivial

lemma readable_dependencyFields (dep : Dependency) :
    ∀ m ∈ dependencyFields dep, Plain (ByteString.ofText m.1) ∧ m.2.Readable := by
  have hnames : (dependencyFields dep).map Prod.fst = (dependencyFields {}).map Prod.fst := by
    simp only [dependencyFields, List.map_cons, List.map_nil]
  intro m hm
  refine ⟨plain_of_names allPlain.dependency hnames hm, ?_⟩
  revert m hm
  simp only [dependencyFields, List.forall_mem_cons, readable_idLeaf, readable_text, and_true, List.not_mem_nil,
    false_implies, implies_true]

lemma readable_requirementFields (req : CompatibilityRequirement) :
    ∀ m ∈ requirementFields req, Plain (ByteString.ofText m.1) ∧ m.2.Readable := by
  have hnames : (requirementFields req).map Prod.fst =
      (requirementFields { dimension := .named .unknown }).map Prod.fst := by
    simp only [requirementFields, List.map_cons, List.map_nil]
  intro m hm
  refine ⟨plain_of_names allPlain.requirement hnames hm, ?_⟩
  revert m hm
  simp only [requirementFields, List.forall_mem_cons, readable_nameLeaf allPlain.dimension, readable_text, and_true,
    List.not_mem_nil, false_implies, implies_true]

lemma readable_recordFields (d : RecordData) :
    ∀ m ∈ recordFields d, Plain (ByteString.ofText m.1) ∧ m.2.Readable := by
  have hnames : (recordFields d).map Prod.fst = (recordFields {}).map Prod.fst := by
    simp only [recordFields, List.map_cons, List.map_nil]
  intro m hm
  refine ⟨plain_of_names allPlain.record hnames hm, ?_⟩
  revert m hm
  simp only [recordFields, List.forall_mem_cons, Field.Readable, List.forall_mem_map, readable_idLeaf, readable_text,
    readable_nat, readable_int, readable_nameLeaf allPlain.subjectKind, readable_nameLeaf allPlain.evidence,
    readable_nameLeaf allPlain.validity, readable_nameLeaf allPlain.invalidationReason,
    readable_nameLeaf allPlain.reuseEligibility, and_true, List.not_mem_nil, false_implies, implies_true, true_and]
  exact ⟨fun dep _ => readable_dependencyFields dep, fun req _ => readable_requirementFields req⟩

lemma parse_recordJson (d : RecordData) : parse 4 (recordJson d) = some (recordValue d) := by
  have hwrites : Writes 4 (recordJson d) (recordValue d) :=
    writes_object fun m hm => (readable_recordFields d m hm).imp_right Field.writes
  exact parse_of_writes hwrites le_rfl

def recordTexts (d : RecordData) :
    List ByteString × List (ByteString × ByteString) × List (ByteString × ByteString) :=
  ([d.modelRevision, d.tokenizer, d.adapterRevision, d.compositionFingerprint, d.architecture,
      d.computeCapability, d.abi, d.dtype, d.layout, d.shape, d.contentDigest, d.note],
    d.dependencies.map fun dep => (dep.kind, dep.revision),
    d.requirements.map fun req => (req.requiredValue, req.note))

lemma map_eq_of_factorsThrough {A B C : Type} [Nonempty C] {f : A → B} {g : A → C} (hfg : g.FactorsThrough f)
    {xs ys : List A} (h : xs.map f = ys.map f) : xs.map g = ys.map g := by
  obtain ⟨e, rfl⟩ := (Function.factorsThrough_iff g).mp hfg
  rw [← List.map_map, h, List.map_map]

lemma dependencyTexts_factorsThrough : Function.FactorsThrough (fun dep : Dependency => (dep.kind, dep.revision))
    fun dep => leafValue (dependencyFields dep) := by
  intro x y h
  simp only [leafValue, dependencyFields, List.map_cons, List.map_nil, Leaf.value, Value.obj.injEq, List.cons.injEq,
    Prod.mk.injEq, Value.str.injEq, true_and, and_true] at h
  exact Prod.ext h.2.2.1 h.2.2.2

lemma requirementTexts_factorsThrough :
    Function.FactorsThrough (fun req : CompatibilityRequirement => (req.requiredValue, req.note))
      fun req => leafValue (requirementFields req) := by
  intro x y h
  simp only [leafValue, requirementFields, List.map_cons, List.map_nil, Leaf.value, Value.obj.injEq,
    List.cons.injEq, Prod.mk.injEq, Value.str.injEq, true_and, and_true] at h
  exact Prod.ext h.2.1 h.2.2

lemma recordTexts_of_recordValue {d d' : RecordData} (h : recordValue d = recordValue d') :
    recordTexts d = recordTexts d' := by
  simp only [recordValue, recordFields, List.map_cons, List.map_nil, List.map_map, Field.value, Leaf.value,
    Value.obj.injEq, List.cons.injEq, Prod.mk.injEq, Value.str.injEq, Value.arr.injEq, true_and, and_true] at h
  have hdependencies : d.dependencies.map (fun dep => leafValue (dependencyFields dep)) =
      d'.dependencies.map fun dep => leafValue (dependencyFields dep) := by tauto
  have hrequirements : d.requirements.map (fun req => leafValue (requirementFields req)) =
      d'.requirements.map fun req => leafValue (requirementFields req) := by tauto
  rw [recordTexts, map_eq_of_factorsThrough dependencyTexts_factorsThrough hdependencies,
    map_eq_of_factorsThrough requirementTexts_factorsThrough hrequirements]
  simp only [recordTexts, h]

theorem jsonEscape_lossless :
    (∀ s front back, jsonEscape s = front ++ 0x22 :: back → pending front = true) ∧
    (∀ s, ∀ x ∈ jsonEscape s, 0x20 ≤ x) ∧
    (∀ s front back, jsonEscape s = front ++ 0x5C :: back →
      pending front = true ∨ ∃ e ∈ emittedEscapes, ∃ after, 0x5C :: back = e ++ after) ∧
    (∀ s rest, readString (jsonEscape s ++ 0x22 :: rest) = some (s, rest)) ∧
    Function.Injective jsonEscape ∧
    (∀ d, parse 4 (recordJson d) = some (recordValue d)) ∧
    ∀ d d', recordJson d = recordJson d' → recordTexts d = recordTexts d' := by
  refine ⟨fun _ _ _ => quote_escaped, fun _ _ => le_of_mem_jsonEscape, fun _ _ _ => backslash_escapes,
    readString_jsonEscape, jsonEscape_injective, parse_recordJson, ?_⟩
  intro d d' h
  have hparse := parse_recordJson d
  rw [h, parse_recordJson d'] at hparse
  exact (recordTexts_of_recordValue (Option.some.inj hparse)).symm

example : jsonEscape [0x61, 0x22, 0x01, 0x0A, 0xFF] =
    [0x61, 0x5C, 0x22, 0x5C, 0x75, 0x30, 0x30, 0x30, 0x31, 0x5C, 0x6E, 0xFF] := by decide

end StateProvenance.Explain
