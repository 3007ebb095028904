import StateProvenance.Protocol
import StateProvenance.PersistRoundTrip
import StateProvenance.Library.Runs

/-! The coordinator process: the messages that reach its store, the file it saves, and what is left of
both after a crash and a restart. -/

namespace StateProvenance

open Std Library.OrderedMap Library.ByteCodec Library.Runs ProvenanceStore

def afterFirst (needle : ByteString) : ByteString → Option ByteString
  | [] => if needle.isEmpty then some [] else none
  | b :: rest =>
    if needle.isPrefixOf (b :: rest) then some ((b :: rest).drop needle.length)
    else afterFirst needle rest

def getField (s : ByteString) (key : String) : ByteString :=
  match afterFirst (ByteString.ofText (key ++ "=")) s with
  | none => []
  | some rest => rest.takeWhile (· ≠ 0x3B)

def hexDigit (b : UInt8) : Option ℕ :=
  if 0x30 ≤ b ∧ b ≤ 0x39 then some (b.toNat - 0x30)
  else if 0x41 ≤ b ∧ b ≤ 0x46 then some (b.toNat - 0x41 + 10)
  else if 0x61 ≤ b ∧ b ≤ 0x66 then some (b.toNat - 0x61 + 10)
  else none

def isSpace (b : UInt8) : Bool := b = 0x20 ∨ (0x09 ≤ b ∧ b ≤ 0x0D)

def hexValue (s : ByteString) : ℕ :=
  ((s.takeWhile fun b => (hexDigit b).isSome).foldl (fun v b => 16 * v + (hexDigit b).getD 0) 0)

def strtoull16 (s : ByteString) : UInt64 :=
  -- `strtoull` with base 16: out of range gives the largest value, a minus sign negates.
  let s := s.dropWhile isSpace
  let (negative, s) :=
    match s with
    | 0x2D :: rest => (true, rest)
    | 0x2B :: rest => (false, rest)
    | _ => (false, s)
  let s :=
    match s with
    | 0x30 :: 0x78 :: rest => rest
    | 0x30 :: 0x58 :: rest => rest
    | _ => s
  let v := hexValue s
  if v ≥ 2 ^ 64 then 0xFFFFFFFFFFFFFFFF else if negative then -v.toUInt64 else v.toUInt64

def hx (v : ByteString) : UInt64 := strtoull16 v

def setAuthorityOps (payload : ByteString) : List AuthorityOp :=
  let sg := hx (getField payload "state_gen")
  let pg := hx (getField payload "prov_gen")
  let dg := hx (getField payload "dep_gen")
  let mg := hx (getField payload "model_gen")
  let ag := hx (getField payload "attempt")
  let ag2 := hx (getField payload "attempt_gen")
  let pgany := hx (getField payload "policy_gen")
  (if sg ≠ 0 then [.rollStateGeneration ⟨sg⟩] else []) ++
    ((if pg ≠ 0 then [.rollProvenanceGeneration ⟨pg⟩] else []) ++
      ((if dg ≠ 0 then [.setDependencyGeneration ⟨dg⟩] else []) ++
        ((if mg ≠ 0 then [.setModelGeneration ⟨mg⟩] else []) ++
          ((if ag ≠ 0 ∧ ag2 ≠ 0 then [.beginAttempt ⟨ag⟩ ⟨ag2⟩] else []) ++
            if pgany ≠ 0 then [.setPolicyGeneration ⟨pgany⟩] else []))))

inductive Message
  -- `publish` stands for `Publish` and `PublishStale`, which are handled alike.
  | hello (payload : ByteString)
  | publish (payload : ByteString)
  | rollEpoch
  | setAuthority (payload : ByteString)
  | save

def authoritySummary (s : ProvenanceStore) : String :=
  -- Printed into a buffer of 256 characters, the last of which ends the text.
  let a := s.authoritySnapshot
  let text := "epoch=" ++ toString a.epoch.toNat ++ ";attempt=" ++ a.attemptId.toText
    ++ ";attempt_gen=" ++ a.attemptGeneration.toText ++ ";state_gen=" ++ a.stateGeneration.toText
    ++ ";prov_gen=" ++ a.provenanceGeneration.toText ++ ";dep_gen=" ++ a.dependencyGeneration.toText
    ++ ";model_gen=" ++ a.modelGeneration.toText ++ ";adapter_gen=" ++ a.adapterGeneration.toText
    ++ ";policy_gen=" ++ a.policyGeneration.toText
  String.ofList (text.toList.take 255)

def handleHello (s : ProvenanceStore) (payload : ByteString) : ProvenanceStore :=
  if payload.length ≥ 16 then
    let (wid, r) := BinaryReader.u64 ⟨payload, true⟩
    let (bid, _) := r.u64
    s.applyAuthority (.registerBoot ⟨wid.getD 0⟩ ⟨bid.getD 0⟩)
  else s

def handlePublish (s : ProvenanceStore) (payload : ByteString) : Except String String × ProvenanceStore :=
  match decodePublishPayload payload with
  | none => (.ok "err:malformed publish", s)
  | some (d, c) =>
    match s.publishFenced d c with
    | (.error e, s) => (.error e.what, s)
    | (.ok o, s) => (.ok (if o.ok then "ok" else "err:" ++ o.error), s)

def handleMessage (s : ProvenanceStore) : Message → Except String String × ProvenanceStore
  | .hello payload =>
    let s := handleHello s payload
    (.ok (authoritySummary s), s)
  | .publish payload => handlePublish s payload
  | .rollEpoch =>
    let s := s.applyAuthority .rollEpoch
    (.ok ("epoch=" ++ toString s.authority.epoch.toNat), s)
  | .setAuthority payload => (.ok "ok", (setAuthorityOps payload).foldl applyAuthority s)
  | .save => ((fileImage s.snapshot).map fun _ => "saved;digest=" ++ storeDigest s.snapshot, s)

def writtenFile (s : ProvenanceStore) : Message → Option ByteString
  | .save => (fileImage s.snapshot).toOption
  | _ => none

inductive CoordinatorEvent
  | message (m : Message)
  | crash
  | restart

structure Coordinator where
  memory : Option ProvenanceStore := some {}
  saved : Option ByteString := none

def loadStore (bytes : ByteString) : Option ProvenanceStore :=
  match (loadFile bytes).snapshot with
  | none => none
  | some snap =>
    match ({} : ProvenanceStore).restore snap with
    | (.error _, _) => none
    | (.ok (), s) => some s

namespace Coordinator

def answer (t : Coordinator) : CoordinatorEvent → Option String
  | .message m => t.memory.bind fun s => (handleMessage s m).1.toOption
  | _ => none

def step (t : Coordinator) : CoordinatorEvent → Coordinator
  | .message m =>
    match t.memory with
    | none => t
    | some s =>
      match handleMessage s m with
      | (.error _, _) => { t with memory := none }
      | (.ok _, s') => ⟨some s', (writtenFile s m).or t.saved⟩
  | .crash => { t with memory := none }
  | .restart =>
    match t.memory with
    | some _ => t
    | none => { t with memory := t.saved.bind loadStore }

end Coordinator

end StateProvenance
