import StateProvenance.Ids
import StateProvenance.Library.ByteCodec
import StateProvenance.Library.Runs

/-! Frames on a connection: a 32-bit length, the operation byte, the payload. The transport moves bytes
reliably and in order, so a connection is the list of the bytes sent and not yet received. -/

namespace StateProvenance

open Library.ByteCodec Library.Runs

structure Frame where
  op : UInt8
  payload : ByteString
deriving DecidableEq

def kMaxFrame : UInt32 := 32 * 1024 * 1024

def sendAll (stream data : ByteString) : ByteString := stream ++ data

def recvAll (stream : ByteString) (n : ℕ) : Option (ByteString × ByteString) :=
  if n ≤ stream.length then some (stream.take n, stream.drop n) else none

-- The size is converted to 32 bits before 1 is added and the cap is tested.
def frameLen (payload : ByteString) : UInt32 := payload.length.toUInt32 + 1

def sendFrame (stream : ByteString) (f : Frame) : Bool × ByteString :=
  let len := frameLen f.payload
  if len > kMaxFrame then (false, stream)
  else
    let stream := sendAll stream (toLE 4 len.toNat)
    let stream := sendAll stream [f.op]
    (true, if f.payload.isEmpty then stream else sendAll stream f.payload)

def recvPayload (stream : ByteString) (plen : UInt32) : Option (ByteString × ByteString) :=
  if plen > 0 then recvAll stream plen.toNat else some ([], stream)

def recvFrame (stream : ByteString) : Option (Frame × ByteString) := do
  let (head, stream) ← recvAll stream 4
  let len : UInt32 := (ofLE head).toUInt32
  if len = 0 ∨ len > kMaxFrame then none
  else
    let (op, stream) ← recvAll stream 1
    let (payload, stream) ← recvPayload stream (len - 1)
    pure (⟨op.headD 0, payload⟩, stream)

lemma recvAll_append (data rest : ByteString) : recvAll (data ++ rest) data.length = some (data, rest) := by
  simp [recvAll]

lemma recvAll_length {stream data rest : ByteString} {n : ℕ} (h : recvAll stream n = some (data, rest)) :
    stream.length = n + rest.length := by
  rw [recvAll] at h
  split at h
  · next hn =>
    cases h
    rw [List.length_drop]
    omega
  · contradiction

lemma recvPayload_eq (stream : ByteString) (plen : UInt32) :
    recvPayload stream plen = recvAll stream plen.toNat := by
  rw [recvPayload]
  split
  · rfl
  · next h =>
    have hzero : plen.toNat = 0 := by
      rw [gt_iff_lt, UInt32.lt_iff_toNat_lt] at h
      exact Nat.eq_zero_of_not_pos h
    simp [recvAll, hzero]

lemma recvFrame_length {stream rest : ByteString} {f : Frame} (h : recvFrame stream = some (f, rest)) :
    rest.length < stream.length := by
  simp only [recvFrame, Option.bind_eq_bind, Option.bind_eq_some_iff, Prod.exists] at h
  obtain ⟨head, s₁, h₁, h⟩ := h
  have hl₁ := recvAll_length h₁
  split at h
  · contradiction
  · obtain ⟨op, s₂, h₂, payload, s₃, h₃, h⟩ := by
      simpa only [Option.bind_eq_some_iff, Prod.exists] using h
    have hl₂ := recvAll_length h₂
    rw [recvPayload_eq] at h₃
    have hl₃ := recvAll_length h₃
    obtain rfl : s₃ = rest := by
      cases h
      rfl
    omega

lemma recvFrame_header (len : UInt32) (op : UInt8) (body : ByteString) :
    recvFrame (toLE 4 len.toNat ++ op :: body) =
      if len = 0 ∨ len > kMaxFrame then none
      else (recvAll body (len - 1).toNat).map fun x => (⟨op, x.1⟩, x.2) := by
  have hhead := recvAll_append (toLE 4 len.toNat) (op :: body)
  have hop := recvAll_append [op] body
  rw [length_toLE] at hhead
  rw [List.length_singleton, List.singleton_append] at hop
  have hlen : (ofLE (toLE 4 len.toNat)).toUInt32 = len := by
    have hlt : len.toNat < 256 ^ 4 := len.toNat_lt
    rw [ofLE_toLE, Nat.mod_eq_of_lt hlt]
    simp
  simp only [recvFrame, hhead, Option.bind_eq_bind, Option.bind_some, hlen, hop, recvPayload_eq]
  split
  · rfl
  · cases recvAll body (len - 1).toNat <;> rfl

def recvFrames (stream : ByteString) : List Frame :=
  match _h : recvFrame stream with
  | none => []
  | some (f, rest) => f :: recvFrames rest
termination_by stream.length
decreasing_by exact recvFrame_length _h

lemma recvFrames_none {stream : ByteString} (h : recvFrame stream = none) : recvFrames stream = [] := by
  rw [recvFrames]
  split
  · rfl
  · simp_all

lemma recvFrames_some {stream rest : ByteString} {f : Frame} (h : recvFrame stream = some (f, rest)) :
    recvFrames stream = f :: recvFrames rest := by
  rw [recvFrames]
  split
  · simp_all
  · next f' rest' h' =>
    rw [h, Option.some.injEq, Prod.mk.injEq] at h'
    rw [h'.1, h'.2]

def sendCall (stream : ByteString) (f : Frame) : ByteString := (sendFrame stream f).2

def sentFrame (stream : ByteString) (f : Frame) : Option Frame :=
  if (sendFrame stream f).1 then some f else none

structure Framed (calls : List Frame) : Prop where
  refused : ∀ stream, ∀ f ∈ calls, (sendFrame stream f).1 = false → (sendFrame stream f).2 = stream
  received : recvFrames (run sendCall [] calls) = observe sendCall sentFrame [] calls

/-- The size with its operation byte passes 32 bits, and what is left of it passes the cap. -/
def Wraps (f : Frame) : Prop :=
  2 ^ 32 ≤ f.payload.length + 1 ∧ (f.payload.length + 1) % 2 ^ 32 ≤ 32 * 1024 * 1024

def Fits (f : Frame) : Prop := (f.payload.length + 1) % 2 ^ 32 ≤ 32 * 1024 * 1024

instance (f : Frame) : Decidable (Fits f) := inferInstanceAs (Decidable (_ ≤ _))

def wire (f : Frame) : ByteString :=
  if Fits f then toLE 4 (frameLen f.payload).toNat ++ f.op :: f.payload else []

lemma toNat_frameLen (payload : ByteString) :
    (frameLen payload).toNat = (payload.length + 1) % 2 ^ 32 := by
  simp [frameLen, UInt32.toNat_add]

lemma frameLen_gt_iff (f : Frame) : frameLen f.payload > kMaxFrame ↔ ¬ Fits f := by
  rw [gt_iff_lt, UInt32.lt_iff_toNat_lt, toNat_frameLen, Fits, not_le]
  rfl

lemma sendFrame_eq (stream : ByteString) (f : Frame) :
    sendFrame stream f = (decide (Fits f), stream ++ wire f) := by
  rw [sendFrame, wire]
  by_cases hf : Fits f
  · have hcap := (not_congr (frameLen_gt_iff f)).mpr (not_not.mpr hf)
    rw [if_neg hcap, if_pos hf, decide_eq_true hf]
    cases hp : f.payload with
    | nil => simp [sendAll]
    | cons b bs => simp [sendAll]
  · rw [if_pos ((frameLen_gt_iff f).mpr hf), if_neg hf, decide_eq_false hf, List.append_nil]

lemma run_sendCall (stream : ByteString) (calls : List Frame) :
    run sendCall stream calls = stream ++ calls.flatMap wire := by
  induction calls generalizing stream with
  | nil => simp
  | cons f calls ih => rw [run_cons, ih, sendCall, sendFrame_eq, List.flatMap_cons, List.append_assoc]

lemma observe_sendCall (stream : ByteString) (calls : List Frame) :
    observe sendCall sentFrame stream calls = calls.filter fun f => Fits f := by
  induction calls generalizing stream with
  | nil => rfl
  | cons f calls ih =>
    rw [observe, ih, sentFrame, sendFrame_eq]
    by_cases hf : Fits f <;> simp [hf]

lemma recvFrame_wire {f : Frame} (hf : Fits f) (hw : ¬ Wraps f) (rest : ByteString) :
    recvFrame (wire f ++ rest) = some (f, rest) := by
  have hlen : (frameLen f.payload).toNat = f.payload.length + 1 := by
    rw [toNat_frameLen]
    apply Nat.mod_eq_of_lt
    by_contra h
    exact hw ⟨not_lt.mp h, hf⟩
  have hpos : frameLen f.payload ≠ 0 := by
    intro h
    rw [h] at hlen
    simp at hlen
  have hcap := (not_congr (frameLen_gt_iff f)).mpr (not_not.mpr hf)
  have hplen : (frameLen f.payload - 1).toNat = f.payload.length := by
    rw [UInt32.toNat_sub_of_le _ _ (by rw [UInt32.le_iff_toNat_le, hlen]; simp), hlen]
    simp
  rw [wire, if_pos hf, List.append_assoc, List.cons_append, recvFrame_header, if_neg (by tauto), hplen,
    recvAll_append]
  rfl

lemma recvFrames_wraps {f : Frame} (hw : Wraps f) (rest : ByteString) (l : List Frame) :
    recvFrames (wire f ++ rest) ≠ f :: l := by
  have hf : Fits f := hw.2
  have hcap := (not_congr (frameLen_gt_iff f)).mpr (not_not.mpr hf)
  have hrecv : recvFrame (wire f ++ rest) = if frameLen f.payload = 0 then none
      else (recvAll (f.payload ++ rest) (frameLen f.payload - 1).toNat).map fun x => (⟨f.op, x.1⟩, x.2) := by
    rw [wire, if_pos hf, List.append_assoc, List.cons_append, recvFrame_header]
    simp only [hcap, or_false]
  intro h
  by_cases hz : frameLen f.payload = 0
  · rw [if_pos hz] at hrecv
    rw [recvFrames_none hrecv] at h
    contradiction
  · have hone : (1 : UInt32) ≤ frameLen f.payload := by
      rw [UInt32.le_iff_toNat_le]
      exact Nat.pos_of_ne_zero fun h0 => hz (UInt32.toNat_inj.mp h0)
    have hshort : (frameLen f.payload - 1).toNat < f.payload.length := by
      have hmod : (f.payload.length + 1) % 2 ^ 32 < 2 ^ 32 := Nat.mod_lt _ (by norm_num)
      have hwrap := hw.1
      rw [UInt32.toNat_sub_of_le _ _ hone, toNat_frameLen]
      have hone' : (1 : UInt32).toNat = 1 := rfl
      omega
    have htake : recvAll (f.payload ++ rest) (frameLen f.payload - 1).toNat =
        some ((f.payload ++ rest).take (frameLen f.payload - 1).toNat,
          (f.payload ++ rest).drop (frameLen f.payload - 1).toNat) := by
      rw [recvAll, if_pos]
      rw [List.length_append]
      omega
    rw [if_neg hz, htake] at hrecv
    rw [recvFrames_some hrecv] at h
    have hpay := congrArg Frame.payload (List.cons.inj h).1
    have hl := congrArg List.length hpay
    rw [List.length_take, List.length_append] at hl
    omega

lemma recvFrames_wire_iff (calls : List Frame) :
    recvFrames (calls.flatMap wire) = calls.filter (fun f => Fits f) ↔ ∀ f ∈ calls, ¬ Wraps f := by
  induction calls with
  | nil =>
    rw [List.flatMap_nil, recvFrames_none (by rfl)]
    simp
  | cons f calls ih =>
    rw [List.flatMap_cons, List.forall_mem_cons, ← ih]
    by_cases hf : Fits f
    · rw [List.filter_cons_of_pos (by simpa using hf)]
      by_cases hw : Wraps f
      · exact iff_of_false (recvFrames_wraps hw _ _) fun h => h.1 hw
      · rw [recvFrames_some (recvFrame_wire hf hw _), List.cons_inj_right]
        simp [hw]
    · have hw : ¬ Wraps f := fun h => hf h.2
      rw [List.filter_cons_of_neg (by simpa using hf), wire, if_neg hf, List.nil_append]
      simp [hw]

theorem framed_iff (calls : List Frame) : Framed calls ↔ ∀ f ∈ calls, ¬ Wraps f := by
  rw [← recvFrames_wire_iff]
  constructor
  · intro h
    have hrec := h.received
    rwa [run_sendCall, observe_sendCall, List.nil_append] at hrec
  · intro h
    refine ⟨fun stream f _ hno => ?_, ?_⟩
    · rw [sendFrame_eq, decide_eq_false_iff_not] at hno
      rw [sendFrame_eq, wire, if_neg hno, List.append_nil]
    · rwa [run_sendCall, observe_sendCall, List.nil_append]

theorem four_gigabyte_frame_lost : ¬ ∀ calls, Framed calls := by
  intro h
  obtain ⟨payload, hlen⟩ : ∃ payload : ByteString, payload.length = 2 ^ 32 - 1 :=
    ⟨List.replicate (2 ^ 32 - 1) 0, List.length_replicate⟩
  have hw : Wraps ⟨1, payload⟩ := by
    constructor <;> simp [hlen]
  have hrec := (h [⟨1, payload⟩]).received
  rw [run_sendCall, observe_sendCall, List.nil_append, recvFrames_wire_iff] at hrec
  exact hrec ⟨1, payload⟩ List.mem_cons_self hw

end StateProvenance
