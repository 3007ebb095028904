import StateProvenance.Coordinator

/-! The worker's side of the handshake: the `Hello` it sends, the response it parses, and the claim it
builds. -/

namespace StateProvenance

open Std Library.OrderedMap Library.ByteCodec

namespace Worker

def hello (wid : WorkerId) (boot : WorkerBootId) : ByteString :=
  toLE 8 wid.get.toNat ++ toLE 8 boot.get.toNat

lemma length_hello (wid : WorkerId) (boot : WorkerBootId) : (hello wid boot).length = 16 := by
  simp [hello]

lemma u64_hello (wid : WorkerId) (boot : WorkerBootId) :
    BinaryReader.u64 ⟨hello wid boot, true⟩ = (some wid.get, ⟨toLE 8 boot.get.toNat ++ [], true⟩) := by
  rw [hello, u64_append, List.append_nil]

lemma handleHello_hello (s : ProvenanceStore) (wid : WorkerId) (boot : WorkerBootId) :
    handleHello s (hello wid boot) = s.applyAuthority (.registerBoot wid boot) := by
  rw [handleHello, if_pos (length_hello wid boot).ge, u64_hello]
  simp only [u64_append, Option.getD_some]
  rfl

def parseFrom (m : OrdMap ByteString ByteString) (s : ByteString) : OrdMap ByteString ByteString :=
  match s.findIdx? (· = 0x3D) with
  | none => m
  | some eq =>
    let k := s.take eq
    match hsem : s.findIdx? (· = 0x3B) with
    | none => m.insert k (s.drop (eq + 1))
    | some sem =>
      -- Where the separator comes first the length wraps, and the value is all that follows.
      let v := if sem < eq then s.drop (eq + 1) else (s.drop (eq + 1)).take (sem - eq - 1)
      parseFrom (m.insert k v) (s.drop (sem + 1))
termination_by s.length
decreasing_by
  obtain ⟨hlt, -⟩ := List.findIdx?_eq_some_iff_getElem.mp hsem
  rw [List.length_drop]
  omega

def parse (s : ByteString) : OrdMap ByteString ByteString := parseFrom ∅ s

def field (auth : OrdMap ByteString ByteString) (key : String) : UInt64 :=
  hx (auth.getD (ByteString.ofText key) [])

end Worker

structure WorkerAuthority where
  epoch : UInt64
  attempt : UInt64
  attemptGen : UInt64
  stateGen : UInt64
  provGen : UInt64
  depGen : UInt64
  modelGen : UInt64
deriving DecidableEq

namespace WorkerAuthority

open Worker

def ofResponse (resp : ByteString) : WorkerAuthority :=
  let auth := parse resp
  { epoch := field auth "epoch"
    attempt := field auth "attempt"
    attemptGen := field auth "attempt_gen"
    stateGen := field auth "state_gen"
    provGen := field auth "prov_gen"
    depGen := field auth "dep_gen"
    modelGen := field auth "model_gen" }

def orOne (v : UInt64) : UInt64 := if v ≠ 0 then v else 1

def claim (a : WorkerAuthority) (wid : WorkerId) (boot : WorkerBootId) : AuthorityClaim where
  workerId := wid
  workerBoot := boot
  attemptId := ⟨orOne a.attempt⟩
  attemptGeneration := ⟨orOne a.attemptGen⟩
  stateGeneration := ⟨orOne a.stateGen⟩
  provenanceGeneration := ⟨orOne a.provGen⟩
  coordinatorEpoch := a.epoch
  dependencyGeneration := some ⟨a.depGen⟩

end WorkerAuthority

end StateProvenance
