import Mathlib.Tactic

/-! Little-endian numbers, a bounds-checked byte reader that stays failed, and the law of a field: what
the writer emitted is read back in front of any further bytes. -/

namespace StateProvenance.Library.ByteCodec

section Definitions

def toLE : ℕ → ℕ → List UInt8
  | 0, _ => []
  | n + 1, v => v.toUInt8 :: toLE n (v / 256)

def ofLE : List UInt8 → ℕ
  | [] => 0
  | b :: bs => b.toNat + 256 * ofLE bs

/-- A part of the output, or the exception that writing it throws. -/
abbrev Chunk := Except String (List UInt8)

def emit : List Chunk → Except String (List UInt8)
  | [] => .ok []
  | .error e :: _ => .error e
  | .ok bytes :: cs => (emit cs).map (bytes ++ ·)

structure Cursor where
  rest : List UInt8
  ok : Bool := true

def Cursor.take (r : Cursor) (n : ℕ) : Option (List UInt8) × Cursor :=
  if r.ok && n ≤ r.rest.length then (some (r.rest.take n), { r with rest := r.rest.drop n })
  else (none, { r with ok := false })

def Cursor.remaining (r : Cursor) : ℕ := if r.ok then r.rest.length else 0

abbrev Parse := StateT Cursor (Except String)

def need {α : Type} (read : Cursor → Option α × Cursor) (err : String) : Parse α := fun r =>
  match read r with
  | (some a, r) => .ok (a, r)
  | (none, _) => .error err

def check (cond : Bool) (err : String) : Parse Unit := fun r =>
  if cond then .ok ((), r) else .error err

def many {α : Type} (p : Parse α) : ℕ → Parse (List α)
  | 0 => pure []
  | n + 1 => do
    let a ← p
    let as ← many p n
    pure (a :: as)

end Definitions

@[simp] lemma length_toLE (n v : ℕ) : (toLE n v).length = n := by
  induction n generalizing v with
  | zero => rfl
  | succ n ih => rw [toLE, List.length_cons, ih]

lemma ofLE_toLE (n v : ℕ) : ofLE (toLE n v) = v % 256 ^ n := by
  induction n generalizing v with
  | zero => simp [toLE, ofLE, Nat.mod_one]
  | succ n ih =>
    have hbyte : (v.toUInt8).toNat = v % 256 := by simp
    rw [toLE, ofLE, ih, hbyte, pow_succ', Nat.mod_mul]

lemma toLE_ofLE (bytes : List UInt8) : toLE bytes.length (ofLE bytes) = bytes := by
  induction bytes with
  | nil => rfl
  | cons b bytes ih =>
    have hlow : (b.toNat + 256 * ofLE bytes).toUInt8 = b := by
      apply UInt8.toNat_inj.mp
      simp
    have hhigh : (b.toNat + 256 * ofLE bytes) / 256 = ofLE bytes := by
      have hb := b.toNat_lt
      omega
    rw [List.length_cons, ofLE, toLE, hlow, hhigh, ih]

lemma ofLE_lt (bytes : List UInt8) : ofLE bytes < 256 ^ bytes.length := by
  induction bytes with
  | nil => simp [ofLE]
  | cons b bytes ih =>
    have hb := b.toNat_lt
    rw [ofLE, List.length_cons, pow_succ]
    omega

lemma emit_cons_eq_ok (c : Chunk) (cs : List Chunk) (w : List UInt8) :
    emit (c :: cs) = .ok w ↔ ∃ b v, c = .ok b ∧ emit cs = .ok v ∧ w = b ++ v := by
  cases c with
  | error e => simp [emit]
  | ok b =>
    rw [emit]
    cases emit cs with
    | error e => simp [Except.map]
    | ok v => simp [Except.map, eq_comm]

lemma emit_append_eq_ok (cs ds : List Chunk) (w : List UInt8) :
    emit (cs ++ ds) = .ok w ↔ ∃ b v, emit cs = .ok b ∧ emit ds = .ok v ∧ w = b ++ v := by
  induction cs generalizing w with
  | nil => simp [emit]
  | cons c cs ih =>
    rw [List.cons_append, emit_cons_eq_ok]
    simp only [ih, emit_cons_eq_ok]
    constructor
    · rintro ⟨b, v, hc, ⟨b', v', hcs, hds, rfl⟩, rfl⟩
      exact ⟨b ++ b', v', ⟨b, b', hc, hcs, rfl⟩, hds, by simp⟩
    · rintro ⟨b, v, ⟨b', v', hc, hcs, rfl⟩, hds, rfl⟩
      exact ⟨b', v' ++ v, hc, ⟨v', v, hcs, hds, rfl⟩, by simp⟩

section Emits

def Emits (cs : List Chunk) : Prop := ∃ w, emit cs = .ok w

@[simp] lemma emits_nil : Emits [] := ⟨[], rfl⟩

@[simp] lemma emits_cons (c : Chunk) (cs : List Chunk) : Emits (c :: cs) ↔ (∃ b, c = .ok b) ∧ Emits cs := by
  simp only [Emits, emit_cons_eq_ok]
  constructor
  · rintro ⟨w, b, v, hc, hcs, -⟩
    exact ⟨⟨b, hc⟩, v, hcs⟩
  · rintro ⟨⟨b, hc⟩, v, hcs⟩
    exact ⟨b ++ v, b, v, hc, hcs, rfl⟩

@[simp] lemma emits_append (cs ds : List Chunk) : Emits (cs ++ ds) ↔ Emits cs ∧ Emits ds := by
  induction cs with
  | nil => simp
  | cons c cs ih => rw [List.cons_append, emits_cons, emits_cons, ih, and_assoc]

@[simp] lemma emits_flatMap {α : Type} (f : α → List Chunk) (l : List α) :
    Emits (l.flatMap f) ↔ ∀ a ∈ l, Emits (f a) := by
  induction l with
  | nil => simp
  | cons a l ih => rw [List.flatMap_cons, emits_append, ih, List.forall_mem_cons]

end Emits

section Size

def chunkSize : Chunk → ℕ
  | .ok bytes => bytes.length
  | .error _ => 0

lemma length_emit {cs : List Chunk} {w : List UInt8} (h : emit cs = .ok w) :
    w.length = (cs.map chunkSize).sum := by
  induction cs generalizing w with
  | nil =>
    cases h
    rfl
  | cons c cs ih =>
    obtain ⟨b, v, rfl, hv, rfl⟩ := (emit_cons_eq_ok c cs w).mp h
    rw [List.length_append, ih hv, List.map_cons, List.sum_cons, chunkSize]

lemma sum_chunkSize_flatMap {α : Type} (f : α → List Chunk) (l : List α) :
    ((l.flatMap f).map chunkSize).sum = (l.map fun a => ((f a).map chunkSize).sum).sum := by
  induction l with
  | nil => rfl
  | cons a l ih => rw [List.flatMap_cons, List.map_append, List.sum_append, ih, List.map_cons, List.sum_cons]

end Size

lemma Cursor.take_append (b rest : List UInt8) :
    (⟨b ++ rest, true⟩ : Cursor).take b.length = (some b, ⟨rest, true⟩) := by
  simp [Cursor.take]

lemma bind_eq_ok {α β : Type} (p : Parse α) (f : α → Parse β) (r : Cursor) (x : β × Cursor) :
    (p >>= f) r = .ok x ↔ ∃ a r', p r = .ok (a, r') ∧ f a r' = .ok x := by
  have hbind : (p >>= f) r = (p r).bind fun y => f y.1 y.2 := rfl
  rw [hbind]
  cases hp : p r with
  | error e => simp [Except.bind]
  | ok y =>
    rcases y with ⟨a, r'⟩
    simp [Except.bind]

lemma pure_eq_ok {α : Type} (a : α) (r : Cursor) (x : α × Cursor) :
    (pure a : Parse α) r = .ok x ↔ x = (a, r) := by
  have hpure : (pure a : Parse α) r = .ok (a, r) := rfl
  rw [hpure, Except.ok.injEq, eq_comm]

lemma check_eq_ok (cond : Bool) (err : String) (r r' : Cursor) (u : Unit) :
    check cond err r = .ok (u, r') ↔ cond = true ∧ r' = r := by
  cases cond <;> simp [check, eq_comm]

def Ensures {α : Type} (p : Parse α) (P : α → Prop) : Prop := ∀ r a r', p r = .ok (a, r') → P a

namespace Ensures

variable {α β : Type} {P : α → Prop} {Q : β → Prop}

lemma pure {a : α} (h : P a) : Ensures (Pure.pure a) P := by
  intro r x r' hx
  obtain rfl := congrArg Prod.fst ((pure_eq_ok _ _ _).mp hx)
  exact h

lemma bind {p : Parse α} {f : α → Parse β} (hp : Ensures p P) (hf : ∀ a, P a → Ensures (f a) Q) :
    Ensures (p >>= f) Q := by
  intro r b r' h
  obtain ⟨a, r₁, ha, hb⟩ := (bind_eq_ok p f r (b, r')).mp h
  exact hf a (hp r a r₁ ha) r₁ b r' hb

lemma skip {p : Parse α} {f : α → Parse β} (hf : ∀ a, Ensures (f a) Q) : Ensures (p >>= f) Q :=
  bind (P := fun _ => True) (fun _ _ _ _ => trivial) fun a _ => hf a

lemma check {cond : Bool} {err : String} {f : Unit → Parse β} (hf : cond = true → Ensures (f ()) Q) :
    Ensures (ByteCodec.check cond err >>= f) Q :=
  bind (P := fun _ => cond = true) (fun r _ r' h => ((check_eq_ok cond err r r' _).mp h).1) fun _ h => hf h

lemma many {p : Parse α} (hp : Ensures p P) (n : ℕ) : Ensures (ByteCodec.many p n) fun as => ∀ a ∈ as, P a := by
  induction n with
  | zero => exact pure (by simp)
  | succ n ih =>
    refine bind hp fun a ha => bind ih fun as has => pure ?_
    exact List.forall_mem_cons.mpr ⟨ha, has⟩

end Ensures

/-- The reader takes exactly the emitted bytes and returns `a`; where `must` does not hold it may
also refuse them. -/
def Reads {α : Type} (must : Prop) (p : Parse α) (cs : List Chunk) (a : α) : Prop :=
  ∀ w, emit cs = .ok w → ∀ rest,
    p ⟨w ++ rest, true⟩ = .ok (a, ⟨rest, true⟩) ∨ ¬ must ∧ ∃ e, p ⟨w ++ rest, true⟩ = .error e

namespace Reads

variable {α β : Type} {must : Prop}

lemma pure (a : α) : Reads must (Pure.pure a) [] a := by
  intro w hw rest
  cases hw
  exact Or.inl rfl

lemma append {p : Parse α} {f : α → Parse β} {cs ds : List Chunk} {a : α} {b : β}
    (hp : Reads must p cs a) (hf : Reads must (f a) ds b) : Reads must (p >>= f) (cs ++ ds) b := by
  intro w hw rest
  obtain ⟨u, v, hu, hv, rfl⟩ := (emit_append_eq_ok cs ds w).mp hw
  have hbind : ∀ r, (p >>= f) r = (p r).bind fun x => f x.1 x.2 := fun _ => rfl
  rw [List.append_assoc, hbind]
  rcases hp u hu (v ++ rest) with h | ⟨hm, e, h⟩
  · rw [h]
    exact hf v hv rest
  · rw [h]
    exact Or.inr ⟨hm, e, rfl⟩

lemma cons {p : Parse α} {f : α → Parse β} {c : Chunk} {ds : List Chunk} {a : α} {b : β}
    (hp : Reads must p [c] a) (hf : Reads must (f a) ds b) : Reads must (p >>= f) (c :: ds) b :=
  hp.append hf

lemma last {p : Parse α} {f : α → Parse β} {cs : List Chunk} {a : α} {b : β} (hp : Reads must p cs a)
    (hf : Reads must (f a) [] b) : Reads must (p >>= f) cs b := by
  have h := hp.append hf
  rwa [List.append_nil] at h

lemma check {cond : Bool} {err : String} {f : Unit → Parse β} {ds : List Chunk} {b : β}
    (hc : must → cond = true) (hf : Reads must (f ()) ds b) :
    Reads must (ByteCodec.check cond err >>= f) ds b := by
  intro w hw rest
  cases hcond : cond with
  | true => exact hf w hw rest
  | false =>
    refine Or.inr ⟨fun hm => ?_, err, rfl⟩
    rw [hc hm] at hcond
    contradiction

lemma many {p : Parse α} {cs : α → List Chunk} {l : List α} (h : ∀ a ∈ l, Reads must p (cs a) a) :
    Reads must (ByteCodec.many p l.length) (l.flatMap cs) l := by
  induction l with
  | nil => exact Reads.pure []
  | cons a l ih =>
    rw [List.flatMap_cons]
    exact (h a List.mem_cons_self).append
      ((ih fun b hb => h b (List.mem_cons_of_mem _ hb)).last (Reads.pure (a :: l)))

lemma take {n : ℕ} {f : List UInt8 → α} {read : Cursor → Option α × Cursor} {err : String} {bytes : List UInt8}
    (hread : ∀ r, read r = ((r.take n).1.map f, (r.take n).2)) (hn : bytes.length = n) :
    Reads must (need read err) [.ok bytes] (f bytes) := by
  intro w hw rest
  obtain ⟨b, v, hb, hv, rfl⟩ := (emit_cons_eq_ok _ _ w).mp hw
  cases hb
  cases hv
  left
  rw [List.append_nil, need, hread, ← hn, Cursor.take_append]
  rfl

end Reads

/-- The bytes that an accepting run takes are the emission of parts that `P` relates to the value, and the
reader accepts them again in front of any other bytes. -/
def Parses {α : Type} (p : Parse α) (P : α → List Chunk → Prop) : Prop :=
  ∀ r a r', p r = .ok (a, r') → ∃ cs w, P a cs ∧ emit cs = .ok w ∧ r.rest = w ++ r'.rest ∧ r'.ok = r.ok ∧
    ∀ rest, p ⟨w ++ rest, r.ok⟩ = .ok (a, ⟨rest, r.ok⟩)

namespace Parses

variable {α β : Type} {P : α → List Chunk → Prop} {Q : β → List Chunk → Prop}

lemma pure {a : α} (h : P a []) : Parses (Pure.pure a) P := by
  intro r x r' hx
  obtain ⟨rfl, rfl⟩ := Prod.mk.inj ((pure_eq_ok _ _ _).mp hx)
  exact ⟨[], [], h, rfl, rfl, rfl, fun _ => rfl⟩

lemma bind {p : Parse α} {f : α → Parse β} (hp : Parses p P)
    (hf : ∀ a cs, P a cs → Parses (f a) fun b ds => Q b (cs ++ ds)) : Parses (p >>= f) Q := by
  intro r b r' h
  obtain ⟨a, r₁, ha, hb⟩ := (bind_eq_ok p f r (b, r')).mp h
  obtain ⟨cs, u, hcs, hu, hrest₁, hok₁, hagain₁⟩ := hp r a r₁ ha
  obtain ⟨ds, v, hds, hv, hrest₂, hok₂, hagain₂⟩ := hf a cs hcs r₁ b r' hb
  refine ⟨cs ++ ds, u ++ v, hds, (emit_append_eq_ok _ _ _).mpr ⟨u, v, hu, hv, rfl⟩, ?_, hok₂.trans hok₁,
    fun rest => ?_⟩
  · rw [hrest₁, hrest₂, List.append_assoc]
  · rw [hok₁] at hagain₂
    rw [List.append_assoc]
    exact (bind_eq_ok _ _ _ _).mpr ⟨a, _, hagain₁ (v ++ rest), hagain₂ rest⟩

lemma step {p : Parse α} {f : α → Parse β} {enc : α → List Chunk} (hp : Parses p fun a cs => cs = enc a)
    (hf : ∀ a, Parses (f a) fun b ds => Q b (enc a ++ ds)) : Parses (p >>= f) Q :=
  hp.bind fun a _ hcs => hcs ▸ hf a

lemma check {cond : Bool} {err : String} {f : Unit → Parse β} (hf : cond = true → Parses (f ()) Q) :
    Parses (ByteCodec.check cond err >>= f) Q := by
  cases cond with
  | true => exact hf rfl
  | false =>
    intro r b r' h
    contradiction

lemma many {p : Parse α} {enc : α → List Chunk} (hp : Parses p fun a cs => cs = enc a) (n : ℕ) :
    Parses (ByteCodec.many p n) fun as cs => as.length = n ∧ cs = as.flatMap enc := by
  induction n with
  | zero => exact pure ⟨rfl, rfl⟩
  | succ n ih =>
    refine hp.step fun a => ih.bind fun as cs has => pure ?_
    obtain ⟨rfl, rfl⟩ := has
    exact ⟨rfl, by rw [List.flatMap_cons, List.append_nil]⟩

lemma regroup {p : Parse α} {P' : α → List Chunk → Prop} (hp : Parses p P)
    (h : ∀ a cs, P a cs → ∃ ds, P' a ds ∧ emit ds = emit cs) : Parses p P' := by
  intro r a r' ha
  obtain ⟨cs, w, hcs, hw, hrest, hok, hagain⟩ := hp r a r' ha
  obtain ⟨ds, hds, he⟩ := h a cs hcs
  exact ⟨ds, w, hds, he.trans hw, hrest, hok, hagain⟩

lemma take {n : ℕ} {f : List UInt8 → α} {read : Cursor → Option α × Cursor} {err : String}
    (hread : ∀ r, read r = ((r.take n).1.map f, (r.take n).2)) :
    Parses (need read err) fun a cs => ∃ bytes : List UInt8, bytes.length = n ∧ a = f bytes ∧ cs = [.ok bytes] := by
  intro r a r' h
  rcases r with ⟨bytes, ok⟩
  rw [need, hread, Cursor.take] at h
  split at h
  · next heq =>
    split at heq
    · next hfit =>
      obtain ⟨rfl, hlen⟩ : ok = true ∧ n ≤ bytes.length := by simpa using hfit
      simp only [Option.map_some, Prod.mk.injEq, Option.some.injEq] at heq
      obtain ⟨rfl, rfl⟩ := heq
      obtain ⟨rfl, rfl⟩ := Prod.mk.inj (Except.ok.inj h)
      have htake : (bytes.take n).length = n := by simp [hlen]
      refine ⟨_, bytes.take n, ⟨_, htake, rfl, rfl⟩, by simp [emit, Except.map],
        (List.take_append_drop n bytes).symm, rfl, fun rest => ?_⟩
      have happend := Cursor.take_append (bytes.take n) rest
      rw [htake] at happend
      rw [need, hread, happend]
      rfl
    · simp at heq
  · contradiction

lemma field {n : ℕ} {f : List UInt8 → α} {read : Cursor → Option α × Cursor} {err : String} {enc : α → Chunk}
    (hread : ∀ r, read r = ((r.take n).1.map f, (r.take n).2))
    (henc : ∀ bytes : List UInt8, bytes.length = n → enc (f bytes) = .ok bytes) :
    Parses (need read err) fun a cs => cs = [enc a] := by
  refine (Parses.take hread).regroup ?_
  rintro a cs ⟨bytes, hlen, rfl, rfl⟩
  exact ⟨[.ok bytes], by rw [henc bytes hlen], rfl⟩

end Parses

end StateProvenance.Library.ByteCodec
