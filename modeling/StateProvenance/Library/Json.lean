import Mathlib.Data.List.Basic
import Mathlib.Tactic

/-! JSON text as bytes, without white space: the rules for string literals, and a reader of whole documents
with a limit on their depth. A number is kept as its text; a byte of 0x80 and more stands for itself. -/

namespace StateProvenance.Library.Json

section Definitions

def simpleEscapes : List (UInt8 × UInt8) :=
  [(0x22, 0x22), (0x5C, 0x5C), (0x2F, 0x2F), (0x62, 0x08), (0x66, 0x0C), (0x6E, 0x0A), (0x72, 0x0D),
    (0x74, 0x09)]

def hexValue (c : UInt8) : Option ℕ :=
  if 0x30 ≤ c ∧ c ≤ 0x39 then some (c - 0x30).toNat
  else if 0x41 ≤ c ∧ c ≤ 0x46 then some ((c - 0x41).toNat + 10)
  else if 0x61 ≤ c ∧ c ≤ 0x66 then some ((c - 0x61).toNat + 10)
  else none

def codeUnit : List UInt8 → Option (ℕ × List UInt8)
  | a :: b :: c :: d :: rest => do
    let a ← hexValue a
    let b ← hexValue b
    let c ← hexValue c
    let d ← hexValue d
    pure (((a * 16 + b) * 16 + c) * 16 + d, rest)
  | _ => none

def codePoint (n : ℕ) : List UInt8 := String.utf8EncodeChar (Char.ofNat n)

/-- The character of a high surrogate and the low one that follows it. -/
def readLow (u : ℕ) : List UInt8 → Option (List UInt8 × List UInt8)
  | a :: b :: rest =>
    if a = 0x5C ∧ b = 0x75 then do
      let (l, rest) ← codeUnit rest
      if 0xDC00 ≤ l ∧ l < 0xE000 then pure (codePoint (0x10000 + (u - 0xD800) * 0x400 + (l - 0xDC00)), rest)
      else none
    else none
  | _ => none

def readUnicode (s : List UInt8) : Option (List UInt8 × List UInt8) := do
  let (u, rest) ← codeUnit s
  if 0xD800 ≤ u ∧ u < 0xDC00 then readLow u rest
  else if 0xDC00 ≤ u ∧ u < 0xE000 then none
  else pure (codePoint u, rest)

def readChar : List UInt8 → Option (List UInt8 × List UInt8)
  | [] => none
  | b :: rest =>
    if b = 0x5C then
      match rest with
      | [] => none
      | e :: rest =>
        if e = 0x75 then readUnicode rest else (simpleEscapes.lookup e).map fun b => ([b], rest)
    else if b < 0x20 ∨ b = 0x22 then none
    else some ([b], rest)

def readBody : ℕ → List UInt8 → Option (List UInt8 × List UInt8)
  | 0, _ => none
  | n + 1, s =>
    if s.head? = some 0x22 then some ([], s.tail)
    else do
      let (bs, rest) ← readChar s
      let (cs, rest) ← readBody n rest
      pure (bs ++ cs, rest)

def readString (s : List UInt8) : Option (List UInt8 × List UInt8) := readBody s.length s

end Definitions

section Escaping

lemma codeUnit_append {s : List UInt8} {u : ℕ} {rest : List UInt8} (h : codeUnit s = some (u, rest))
    (back : List UInt8) : codeUnit (s ++ back) = some (u, rest ++ back) := by
  match s with
  | [] | [_] | [_, _] | [_, _, _] => cases h
  | a :: b :: c :: d :: s =>
    simp only [codeUnit, List.cons_append, Option.bind_eq_bind, Option.bind_eq_some_iff, Option.pure_def,
      Option.some.injEq, Prod.mk.injEq] at h ⊢
    obtain ⟨va, ha, vb, hb, vc, hc, vd, hd, rfl, rfl⟩ := h
    exact ⟨va, ha, vb, hb, vc, hc, vd, hd, rfl, rfl⟩

lemma readLow_append {u : ℕ} {s bs rest : List UInt8} (h : readLow u s = some (bs, rest)) (back : List UInt8) :
    readLow u (s ++ back) = some (bs, rest ++ back) := by
  match s with
  | [] | [_] => cases h
  | a :: b :: s =>
    rw [readLow] at h
    split at h
    · next hu =>
      obtain ⟨⟨l, t⟩, hl, hread⟩ := Option.bind_eq_some_iff.mp h
      dsimp only at hread
      split at hread
      · next hlow =>
        obtain ⟨rfl, rfl⟩ := Prod.mk.inj (Option.some.inj hread)
        rw [List.cons_append, List.cons_append, readLow, if_pos hu, codeUnit_append hl, Option.bind_eq_bind,
          Option.bind_some]
        exact if_pos hlow
      · cases hread
    · cases h

lemma readUnicode_append {s bs rest : List UInt8} (h : readUnicode s = some (bs, rest)) (back : List UInt8) :
    readUnicode (s ++ back) = some (bs, rest ++ back) := by
  obtain ⟨⟨u, t⟩, hu, hread⟩ := Option.bind_eq_some_iff.mp h
  rw [readUnicode, codeUnit_append hu, Option.bind_eq_bind, Option.bind_some]
  dsimp only at hread
  split at hread
  · next hhigh => exact (if_pos hhigh).trans (readLow_append hread back)
  · next hhigh =>
    split at hread
    · cases hread
    · next hlow =>
      obtain ⟨rfl, rfl⟩ := Prod.mk.inj (Option.some.inj hread)
      exact (if_neg hhigh).trans (if_neg hlow)

lemma readChar_append {s bs rest : List UInt8} (h : readChar s = some (bs, rest)) (back : List UInt8) :
    readChar (s ++ back) = some (bs, rest ++ back) := by
  cases s with
  | nil => cases h
  | cons b s =>
    rw [readChar.eq_def] at h
    rw [List.cons_append, readChar.eq_def]
    dsimp only at h ⊢
    split at h
    · next hb =>
      rw [if_pos hb]
      cases s with
      | nil => cases h
      | cons e s =>
        rw [List.cons_append]
        dsimp only at h ⊢
        split at h
        · next he =>
          rw [if_pos he]
          exact readUnicode_append h back
        · next he =>
          obtain ⟨x, hx, hread⟩ := Option.map_eq_some_iff.mp h
          cases hread
          rw [if_neg he, hx]
          rfl
    · next hb =>
      split at h
      · cases h
      · next hraw =>
        cases h
        rw [if_neg hb, if_neg hraw]

lemma head_of_readChar {s : List UInt8} {r : List UInt8 × List UInt8} (h : readChar s = some r) :
    s ≠ [] ∧ s.head? ≠ some 0x22 := by
  cases s with
  | nil => cases h
  | cons b rest =>
    refine ⟨List.cons_ne_nil b rest, ?_⟩
    rintro ⟨⟩
    cases h

/-- An escape function for single bytes: each is written as one character that stands for it. -/
def Faithful (f : UInt8 → List UInt8) : Prop := ∀ b, readChar (f b) = some ([b], [])

variable {f : UInt8 → List UInt8} (hf : Faithful f)

include hf

lemma readBody_flatMap {n : ℕ} (s rest : List UInt8) (hn : s.length < n) :
    readBody n (s.flatMap f ++ 0x22 :: rest) = some (s, rest) := by
  induction s generalizing n with
  | nil =>
    cases n with
    | zero => cases hn
    | succ n => rfl
  | cons b s ih =>
    cases n with
    | zero => cases hn
    | succ n =>
      have hchar := readChar_append (hf b) (s.flatMap f ++ 0x22 :: rest)
      have hbody := ih (Nat.lt_of_succ_lt_succ hn)
      rw [List.flatMap_cons, List.append_assoc, readBody, if_neg (head_of_readChar hchar).2, hchar]
      simp only [Option.bind_eq_bind, Option.bind_some, List.nil_append, hbody, Option.pure_def,
        List.singleton_append]

lemma length_le_flatMap (s : List UInt8) : s.length ≤ (s.flatMap f).length := by
  induction s with
  | nil => exact le_rfl
  | cons b s ih =>
    have hpos := List.length_pos_of_ne_nil (head_of_readChar (hf b)).1
    rw [List.flatMap_cons, List.length_append, List.length_cons]
    omega

lemma readString_flatMap (s rest : List UInt8) : readString (s.flatMap f ++ 0x22 :: rest) = some (s, rest) := by
  apply readBody_flatMap hf
  have hle := length_le_flatMap hf s
  rw [List.length_append, List.length_cons]
  omega

lemma flatMap_injective : Function.Injective (List.flatMap f) := by
  intro s t h
  have hs := readString_flatMap hf s []
  change s.flatMap f = t.flatMap f at h
  rw [h, readString_flatMap hf t []] at hs
  exact congrArg Prod.fst (Option.some.inj hs).symm

end Escaping

/-! Positions. A byte is escaped by a backslash in front of it that is not escaped itself. -/

section Positions

def pending (front : List UInt8) : Bool := front.foldl (fun escaped b => !escaped && b == 0x5C) false

lemma pending_append {front : List UInt8} (h : pending front = false) (back : List UInt8) :
    pending (front ++ back) = pending back := by
  rw [pending, List.foldl_append]
  change back.foldl _ (pending front) = pending back
  rw [h]
  rfl

lemma flatMap_eq_append_cons {α β : Type} {f : α → List β} {s : List α} {front : List β} {c : β}
    {back : List β} (h : s.flatMap f = front ++ c :: back) : ∃ before b after u v, s = before ++ b :: after ∧
      f b = u ++ c :: v ∧ front = before.flatMap f ++ u ∧ back = v ++ after.flatMap f := by
  induction s generalizing front with
  | nil => simp at h
  | cons b s ih =>
    rw [List.flatMap_cons, List.append_eq_append_iff] at h
    rcases h with ⟨u, rfl, hs⟩ | ⟨v, hb, hv⟩
    · obtain ⟨before, b', after, u', v', rfl, hb', rfl, rfl⟩ := ih hs
      exact ⟨b :: before, b', after, u', v', rfl, hb', by simp, rfl⟩
    · cases v with
      | nil =>
        have hs : s.flatMap f = [] ++ c :: back := hv.symm
        obtain ⟨before, b', after, u', v', rfl, hb', hnil, rfl⟩ := ih hs
        refine ⟨b :: before, b', after, u', v', rfl, hb', ?_, rfl⟩
        rw [List.flatMap_cons, List.append_assoc, ← hnil, hb, List.append_nil, List.append_nil]
      | cons c' v =>
        obtain ⟨rfl, rfl⟩ := List.cons.inj hv
        exact ⟨[], b, s, front, v, rfl, hb, rfl, rfl⟩

variable {f : UInt8 → List UInt8} (hf : ∀ b, pending (f b) = false)

include hf

lemma pending_flatMap (s : List UInt8) : pending (s.flatMap f) = false := by
  induction s with
  | nil => rfl
  | cons b s ih => rw [List.flatMap_cons, pending_append (hf b), ih]

lemma pending_of_flatMap {s front : List UInt8} {c : UInt8} {back : List UInt8}
    (h : s.flatMap f = front ++ c :: back) : ∃ b ∈ s, ∃ u v after, f b = u ++ c :: v ∧
      pending front = pending u ∧ back = v ++ after := by
  obtain ⟨before, b, after, u, v, rfl, hb, rfl, rfl⟩ := flatMap_eq_append_cons h
  exact ⟨b, by simp, u, v, _, hb, pending_append (pending_flatMap hf before) u, rfl⟩

end Positions

inductive Value
  | str (s : List UInt8)
  | num (text : List UInt8)
  | arr (items : List Value)
  | obj (members : List (List UInt8 × Value))

section Reader

def isNumberByte (b : UInt8) : Bool :=
  (0x30 ≤ b && b ≤ 0x39) || [0x2B, 0x2D, 0x2E, 0x45, 0x65].contains b

variable {α : Type}

def separated (item : List UInt8 → Option (α × List UInt8)) (close : UInt8) :
    ℕ → List UInt8 → Option (List α × List UInt8)
  | 0, _ => none
  | n + 1, s => do
    let (a, rest) ← item s
    match rest with
    | [] => none
    | b :: rest =>
      if b = close then pure ([a], rest)
      else if b = 0x2C then
        let (as, rest) ← separated item close n rest
        pure (a :: as, rest)
      else none

def enclosed (item : List UInt8 → Option (α × List UInt8)) (close : UInt8) (s : List UInt8) :
    Option (List α × List UInt8) :=
  if s.head? = some close then some ([], s.tail) else separated item close (s.length + 1) s

def readMember (value : List UInt8 → Option (α × List UInt8)) (s : List UInt8) :
    Option ((List UInt8 × α) × List UInt8) :=
  if s.head? = some 0x22 then do
    let (name, rest) ← readString s.tail
    if rest.head? = some 0x3A then
      let (v, rest) ← value rest.tail
      pure ((name, v), rest)
    else none
  else none

def readValue : ℕ → List UInt8 → Option (Value × List UInt8)
  | 0, _ => none
  | _ + 1, [] => none
  | n + 1, b :: rest =>
    if b = 0x22 then (readString rest).map fun r => (.str r.1, r.2)
    else if b = 0x5B then (enclosed (readValue n) 0x5D rest).map fun r => (.arr r.1, r.2)
    else if b = 0x7B then (enclosed (readMember (readValue n)) 0x7D rest).map fun r => (.obj r.1, r.2)
    else if isNumberByte b then
      some (.num ((b :: rest).takeWhile isNumberByte), (b :: rest).dropWhile isNumberByte)
    else none

def parse (depth : ℕ) (s : List UInt8) : Option Value :=
  match readValue depth s with
  | some (v, []) => some v
  | _ => none

end Reader

section Lists

variable {α : Type} {item : List UInt8 → Option (α × List UInt8)} {close : UInt8}

def Item (item : List UInt8 → Option (α × List UInt8)) (close : UInt8) (t : List UInt8) (a : α) : Prop :=
  ∀ b rest, b = close ∨ b = 0x2C → item (t ++ b :: rest) = some (a, b :: rest)

lemma length_le_intercalate (ts : List (List UInt8)) : ts.length ≤ ([0x2C].intercalate ts).length + 1 := by
  induction ts with
  | nil => exact Nat.zero_le _
  | cons t ts ih =>
    cases ts with
    | nil => simp
    | cons t' ts =>
      rw [List.intercalate_cons_cons, List.length_append, List.length_append, List.length_cons]
      simp only [List.length_singleton]
      omega

lemma separated_intercalate (hcomma : close ≠ 0x2C) {ts : List (List UInt8)} {as : List α}
    (h : List.Forall₂ (Item item close) ts as) (hne : ts ≠ []) {n : ℕ} (hn : ts.length ≤ n)
    (rest : List UInt8) :
    separated item close n ([0x2C].intercalate ts ++ close :: rest) = some (as, rest) := by
  induction h generalizing n with
  | nil => exact absurd rfl hne
  | cons hitem htail ih =>
    cases n with
    | zero => cases hn
    | succ n =>
      cases htail with
      | nil =>
        rw [List.intercalate_singleton, separated, hitem close rest (Or.inl rfl)]
        simp
      | cons hitem' htail =>
        have hrest := ih (List.cons_ne_nil _ _) (Nat.le_of_succ_le_succ hn)
        rw [List.intercalate_cons_cons, List.append_assoc, List.append_assoc, List.singleton_append, separated,
          hitem 0x2C _ (Or.inr rfl)]
        simp only [Option.bind_eq_bind, Option.bind_some, hcomma.symm, if_false, if_true, hrest, Option.pure_def]

lemma intercalate_cons_append (t : List UInt8) (ts : List (List UInt8)) (close : UInt8) (rest : List UInt8) :
    ∃ b back, [0x2C].intercalate (t :: ts) ++ close :: rest = t ++ b :: back ∧ (b = close ∨ b = 0x2C) := by
  cases ts with
  | nil => exact ⟨close, rest, by rw [List.intercalate_singleton], Or.inl rfl⟩
  | cons t' ts =>
    refine ⟨0x2C, [0x2C].intercalate (t' :: ts) ++ close :: rest, ?_, Or.inr rfl⟩
    rw [List.intercalate_cons_cons, List.append_assoc, List.append_assoc, List.singleton_append]

lemma enclosed_intercalate (hcomma : close ≠ 0x2C) (hclose : ∀ s, item (close :: s) = none)
    {ts : List (List UInt8)} {as : List α} (h : List.Forall₂ (Item item close) ts as) (rest : List UInt8) :
    enclosed item close ([0x2C].intercalate ts ++ close :: rest) = some (as, rest) := by
  cases h with
  | nil => simp [enclosed]
  | @cons t a ts as hitem htail =>
    -- An item that starts with the closing byte would not be read at all.
    have hhead : ([0x2C].intercalate (t :: ts) ++ close :: rest).head? ≠ some close := by
      obtain ⟨b, back, heq, hb⟩ := intercalate_cons_append t ts close rest
      rw [heq]
      intro hhead
      obtain ⟨s, hs⟩ := List.head?_eq_some_iff.mp hhead
      have hread := hitem b back hb
      rw [hs, hclose] at hread
      cases hread
    rw [enclosed, if_neg hhead]
    apply separated_intercalate hcomma (List.Forall₂.cons hitem htail) (List.cons_ne_nil _ _)
    have hle := length_le_intercalate (t :: ts)
    rw [List.length_append]
    omega

end Lists

section Values

def Literal (raw s : List UInt8) : Prop := ∀ rest, readString (raw ++ 0x22 :: rest) = some (s, rest)

def Stops (rest : List UInt8) : Prop := ∀ b ∈ rest.head?, isNumberByte b = false

def Writes (depth : ℕ) (t : List UInt8) (v : Value) : Prop :=
  ∀ n rest, depth ≤ n → Stops rest → readValue n (t ++ rest) = some (v, rest)

def WritesMember (depth : ℕ) (t : List UInt8) (m : List UInt8 × Value) : Prop :=
  ∃ raw text, t = 0x22 :: raw ++ 0x22 :: 0x3A :: text ∧ Literal raw m.1 ∧ Writes depth text m.2

lemma Writes.mono {k depth : ℕ} {t : List UInt8} {v : Value} (h : Writes k t v) (hk : k ≤ depth) :
    Writes depth t v :=
  fun n rest hn => h n rest (hk.trans hn)

lemma writes_str {raw s : List UInt8} (h : Literal raw s) : Writes 1 (0x22 :: raw ++ [0x22]) (.str s) := by
  intro n rest hn _
  have htext : 0x22 :: raw ++ [0x22] ++ rest = 0x22 :: (raw ++ 0x22 :: rest) := by simp
  cases n with
  | zero => cases hn
  | succ n =>
    rw [htext, readValue, if_pos rfl, h rest]
    rfl

lemma takeWhile_stops {rest : List UInt8} (h : Stops rest) :
    rest.takeWhile isNumberByte = [] ∧ rest.dropWhile isNumberByte = rest := by
  cases rest with
  | nil => exact ⟨rfl, rfl⟩
  | cons b rest =>
    have hb : isNumberByte b = false := h b rfl
    simp [hb]

lemma writes_num {t : List UInt8} (hne : t ≠ []) (h : ∀ b ∈ t, isNumberByte b = true) : Writes 1 t (.num t) := by
  intro n rest hn hrest
  obtain ⟨b, s, rfl⟩ := List.exists_cons_of_ne_nil hne
  have hb := h b List.mem_cons_self
  have hother : ∀ c, isNumberByte c = false → b ≠ c := by
    rintro c hc rfl
    rw [hc] at hb
    cases hb
  cases n with
  | zero => cases hn
  | succ n =>
    rw [List.cons_append, readValue, if_neg (hother _ rfl), if_neg (hother _ rfl), if_neg (hother _ rfl),
      if_pos hb, ← List.cons_append, List.takeWhile_append_of_pos h, List.dropWhile_append_of_pos h,
      (takeWhile_stops hrest).1, (takeWhile_stops hrest).2, List.append_nil]

lemma stops_cons {close b : UInt8} (hclose : isNumberByte close = false) (hb : b = close ∨ b = 0x2C)
    (rest : List UInt8) : Stops (b :: rest) := by
  rintro c ⟨⟩
  rcases hb with rfl | rfl
  · exact hclose
  · rfl

lemma writes_arr {depth : ℕ} {ts : List (List UInt8)} {vs : List Value} (h : List.Forall₂ (Writes depth) ts vs) :
    Writes (depth + 1) (0x5B :: [0x2C].intercalate ts ++ [0x5D]) (.arr vs) := by
  intro n rest hn _
  have htext : 0x5B :: [0x2C].intercalate ts ++ [0x5D] ++ rest =
      0x5B :: ([0x2C].intercalate ts ++ 0x5D :: rest) := by simp
  cases n with
  | zero => cases hn
  | succ n =>
    have hclose : ∀ s, readValue n (0x5D :: s) = none := by
      intro s
      cases n with
      | zero => rfl
      | succ n => rfl
    have hitems : List.Forall₂ (Item (readValue n) 0x5D) ts vs := by
      refine h.imp fun t v hv b rest hb => ?_
      exact hv n (b :: rest) (Nat.le_of_succ_le_succ hn) (stops_cons rfl hb rest)
    rw [htext, readValue, if_neg (by decide), if_pos rfl, enclosed_intercalate (by decide) hclose hitems]
    rfl

lemma readMember_append {depth n : ℕ} (hn : depth ≤ n) {t : List UInt8} {m : List UInt8 × Value}
    (h : WritesMember depth t m) {rest : List UInt8} (hrest : Stops rest) :
    readMember (readValue n) (t ++ rest) = some (m, rest) := by
  obtain ⟨raw, text, rfl, hname, hvalue⟩ := h
  have htext : 0x22 :: raw ++ 0x22 :: 0x3A :: text ++ rest = 0x22 :: (raw ++ 0x22 :: 0x3A :: (text ++ rest)) := by
    simp
  rw [htext, readMember, List.head?_cons, if_pos rfl, List.tail_cons, hname]
  simp only [Option.bind_eq_bind, Option.bind_some, List.head?_cons, if_true, List.tail_cons,
    hvalue n rest hn hrest, Option.pure_def]

lemma writes_obj {depth : ℕ} {ts : List (List UInt8)} {ms : List (List UInt8 × Value)}
    (h : List.Forall₂ (WritesMember depth) ts ms) :
    Writes (depth + 1) (0x7B :: [0x2C].intercalate ts ++ [0x7D]) (.obj ms) := by
  intro n rest hn _
  have htext : 0x7B :: [0x2C].intercalate ts ++ [0x7D] ++ rest =
      0x7B :: ([0x2C].intercalate ts ++ 0x7D :: rest) := by simp
  cases n with
  | zero => cases hn
  | succ n =>
    have hclose : ∀ s, readMember (readValue n) (0x7D :: s) = none := fun _ => rfl
    have hitems : List.Forall₂ (Item (readMember (readValue n)) 0x7D) ts ms := by
      refine h.imp fun t m hm b rest hb => ?_
      exact readMember_append (Nat.le_of_succ_le_succ hn) hm (stops_cons rfl hb rest)
    rw [htext, readValue, if_neg (by decide), if_neg (by decide), if_pos rfl,
      enclosed_intercalate (by decide) hclose hitems]
    rfl

lemma parse_of_writes {depth k : ℕ} {t : List UInt8} {v : Value} (h : Writes depth t v) (hk : depth ≤ k) :
    parse k t = some v := by
  have hread := h k [] hk (by simp [Stops])
  rw [List.append_nil] at hread
  rw [parse, hread]

end Values

end StateProvenance.Library.Json
