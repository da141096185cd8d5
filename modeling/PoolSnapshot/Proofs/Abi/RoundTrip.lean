import PoolSnapshot.Proofs.Abi.Layout

/-!
Reading what was written. A value of a type is read back from wherever its part is found, and so are
the values of a sequence, whatever bytes come after them.
-/
namespace PoolSnapshot.Abi

namespace Value

mutual

/-- Values that a type can tell apart. Unlike `fits` this leaves out what is cut or filled up when it
is written, and lists with more items than a length can count. -/
def HasTy : Value → Ty → Prop
  | .address _, .address | .bool _, .bool | .bytes _, .bytes | .uint _, .uint _ | .int _, .int _ => True
  | .string s, .string => Text.lossy (Bytes.ofText s) = s
  | .fixedBytes b, .fixedBytes n => b.length = n ∧ 0 < n ∧ n ≤ 32
  | .array vs, .array t => vs.length < 2 ^ 32 ∧ AllHaveTy vs t
  | .vector vs, .vector t n => vs.length = n ∧ (n = 0 → t.dynamic = false) ∧ AllHaveTy vs t
  | .tuple vs, .tuple ts => EachHasTy vs ts
  | _, _ => False

def AllHaveTy : List Value → Ty → Prop
  | [], _ => True
  | v :: vs, t => v.HasTy t ∧ AllHaveTy vs t

def EachHasTy : List Value → List Ty → Prop
  | [], [] => True
  | v :: vs, t :: ts => v.HasTy t ∧ EachHasTy vs ts
  | _, _ => False

end

mutual

theorem dynamic_eq (v : Value) (t : Ty) (h : v.HasTy t) : v.dynamic = t.dynamic := by
  cases v with
  | vector vs =>
    cases t <;> simp only [HasTy] at h
    case vector t n =>
      obtain ⟨l, e, h⟩ := h
      simp only [dynamic, Ty.dynamic]
      rw [anyDynamic_of_all vs t h, l]
      cases n with
      | zero => simp [e rfl]
      | succ n => simp
  | tuple vs =>
    cases t <;> simp only [HasTy] at h
    case tuple ts => exact anyDynamic_eq vs ts h
  | _ => cases t <;> first | rfl | (simp only [HasTy] at h)

theorem anyDynamic_of_all (vs : List Value) (t : Ty) (h : AllHaveTy vs t) :
    anyDynamic vs = (decide (vs.length ≠ 0) && t.dynamic) := by
  cases vs with
  | nil => rfl
  | cons v vs =>
    simp only [AllHaveTy] at h
    simp only [anyDynamic, dynamic_eq v t h.1, anyDynamic_of_all vs t h.2]
    cases t.dynamic <;> simp

theorem anyDynamic_eq (vs : List Value) (ts : List Ty) (h : EachHasTy vs ts) :
    anyDynamic vs = Ty.anyDynamic ts := by
  match vs, ts, h with
  | [], [], _ => rfl
  | v :: vs, t :: ts, h =>
    simp only [EachHasTy] at h
    simp only [anyDynamic, Ty.anyDynamic, dynamic_eq v t h.1, anyDynamic_eq vs ts h.2]

end

end Value

theorem holds_counted {data b : Bytes} (h : Holds data off (counted b)) :
    Holds data off (word b.length) ∧ Holds data (off + 32) b := by
  have c := h.right
  rw [length_word] at c
  exact ⟨h.left, c.left⟩

theorem countedAt_of_at {data b : Bytes} (h : Part.At data off ⟨true, counted b⟩) :
    countedAt data off = some b := by
  obtain ⟨small, start, e, -, c⟩ := h
  simp only [counted, padRight, List.length_append] at small
  obtain ⟨l, r⟩ := holds_counted c
  have n := sizeAt_of_holds l (by omega)
  simp only [countedAt, e, n, Option.bind_eq_bind, Option.bind_some]
  exact bytesAt_eq_some.mpr ⟨r, rfl⟩

theorem static_of_anyDynamic {vs : List Value} (h : Value.anyDynamic vs = false) :
    ∀ p ∈ Value.parts vs, p.dynamic = false := by
  induction vs with
  | nil => simp [Value.parts]
  | cons v vs ih =>
    simp only [Value.anyDynamic, Bool.or_eq_false_iff] at h
    simp only [Value.parts, List.forall_mem_cons]
    exact ⟨h.1, ih h.2⟩

theorem group_of_at {vs : List Value} {data : Bytes}
    (h : Part.At data off ⟨Value.anyDynamic vs, Part.join (Value.parts vs)⟩) :
    ∃ inner first, group (Value.anyDynamic vs) data off = some (inner, first) ∧
      Part.AllAt inner first (Value.parts vs) ∧
      (if Value.anyDynamic vs then off + 32
        else first + Part.headsSize (Value.parts vs)) =
        off + Part.headSize ⟨Value.anyDynamic vs, Part.join (Value.parts vs)⟩ := by
  cases d : Value.anyDynamic vs with
  | true =>
    rw [d] at h
    obtain ⟨small, start, e, le, rest, b⟩ := h
    refine ⟨data.drop start, 0, ?_, ?_, rfl⟩
    · simp only [group, if_true, e, Option.bind_eq_bind, Option.bind_some, if_pos le]
    · rw [← b]
      exact Part.allAt_join small rest
  | false =>
    rw [d] at h
    obtain ⟨small, b⟩ := h
    have s := static_of_anyDynamic d
    simp only [Part.join_of_static s] at small b
    refine ⟨data, off, rfl, Part.allAt_of_static s small b, ?_⟩
    simp only [Bool.false_eq_true, if_false, Part.headSize, Part.headsSize_of_static s,
      Part.join_of_static s]

mutual

theorem decode_at (v : Value) (t : Ty) (h : v.HasTy t) (data : Bytes) (off : Nat)
    (p : Part.At data off ⟨v.dynamic, v.body⟩) :
    t.decode data off = some (v, off + Part.headSize ⟨v.dynamic, v.body⟩) := by
  cases v with
  | address a =>
    cases t <;> simp only [Value.HasTy] at h
    have w := wordAt_of_holds p.2 (by have := a.isLt; omega)
    simp only [Ty.decode, w, Value.dynamic, Value.body, Part.headSize_word, Option.bind_eq_bind,
      Option.bind_some, BitVec.ofNat_toNat, BitVec.setWidth_eq]
    rfl
  | bool b =>
    cases t <;> simp only [Value.HasTy] at h
    have w := wordAt_of_holds p.2 (by cases b <;> decide)
    simp only [Ty.decode, w, Option.bind_eq_bind, Option.bind_some]
    cases b <;> rfl
  | bytes b =>
    cases t <;> simp only [Value.HasTy] at h
    simp only [Ty.decode, countedAt_of_at p, Option.bind_eq_bind, Option.bind_some]
    rfl
  | string s =>
    cases t <;> simp only [Value.HasTy] at h
    simp only [Ty.decode, countedAt_of_at p, Option.bind_eq_bind, Option.bind_some, h]
    rfl
  | uint w =>
    cases t <;> simp only [Value.HasTy] at h
    have n := wordAt_of_holds p.2 w.isLt
    simp only [Ty.decode, n, Value.dynamic, Value.body, Part.headSize_word, Option.bind_eq_bind,
      Option.bind_some, BitVec.ofNat_toNat, BitVec.setWidth_eq]
    rfl
  | int w =>
    cases t <;> simp only [Value.HasTy] at h
    have n := wordAt_of_holds p.2 w.isLt
    simp only [Ty.decode, n, Value.dynamic, Value.body, Part.headSize_word, Option.bind_eq_bind,
      Option.bind_some, BitVec.ofNat_toNat, BitVec.setWidth_eq]
    rfl
  | fixedBytes b =>
    cases t <;> simp only [Value.HasTy] at h
    case fixedBytes n =>
      obtain ⟨l, pos, le⟩ := h
      have r : bytesAt data off n = some b := bytesAt_eq_some.mpr ⟨Holds.left p.2, l⟩
      have size : (padRight b).length = 32 := by
        simp only [padRight, List.length_append, List.length_replicate]
        omega
      simp only [Ty.decode, r, Value.dynamic, Value.body, Part.headSize, Bool.false_eq_true, if_false,
        size, Option.bind_eq_bind, Option.bind_some]
      rfl
  | array vs =>
    cases t <;> simp only [Value.HasTy] at h
    case array t =>
      obtain ⟨small, start, e, -, b⟩ := p
      simp only [Value.body, List.length_append] at small
      have n := sizeAt_of_holds b.left h.1
      have j := b.right
      rw [length_word] at j
      obtain ⟨rest, j⟩ := j
      have short : (Part.join (Value.parts vs)).length < 2 ^ 32 := by omega
      have a := Part.allAt_join short rest
      rw [j] at a
      have m := many_at vs t h.2 _ 0 a
      simp only [Ty.decode, e, n, m, Option.bind_eq_bind, Option.bind_some]
      rfl
  | vector vs =>
    cases t <;> simp only [Value.HasTy] at h
    case vector t n =>
      have d := Value.dynamic_eq (.vector vs) (.vector t n) h
      simp only [Value.dynamic, Ty.dynamic] at d
      obtain ⟨inner, first, g, a, e⟩ := group_of_at p
      have m := many_at vs t h.2.2 inner first a
      rw [h.1] at m
      rw [d] at g e
      simp only [Ty.decode, g, m, Option.bind_eq_bind, Option.bind_some, e, Value.dynamic, Value.body, d]
      rfl
  | tuple vs =>
    cases t <;> simp only [Value.HasTy] at h
    case tuple ts =>
      obtain ⟨inner, first, g, a, e⟩ := group_of_at p
      have r := decodeEach_at vs ts h inner first a
      have d := Value.anyDynamic_eq vs ts h
      rw [d] at g e
      simp only [Ty.decode, g, r, Option.bind_eq_bind, Option.bind_some, e, Value.dynamic, Value.body, d]
      rfl

theorem decodeEach_at (vs : List Value) (ts : List Ty) (h : Value.EachHasTy vs ts) (data : Bytes)
    (off : Nat) (p : Part.AllAt data off (Value.parts vs)) :
    Ty.decodeEach ts data off = some (vs, off + Part.headsSize (Value.parts vs)) := by
  match vs, ts, h with
  | [], [], _ => rfl
  | v :: vs, t :: ts, h =>
    simp only [Value.EachHasTy] at h
    simp only [Value.parts, Part.AllAt] at p
    have a := decode_at v t h.1 data off p.1
    have b := decodeEach_at vs ts h.2 data _ p.2
    simp only [Ty.decodeEach, a, b, Option.bind_eq_bind, Option.bind_some, Value.parts,
      Part.headsSize, Nat.add_assoc]
    rfl

theorem many_at (vs : List Value) (t : Ty) (h : Value.AllHaveTy vs t) (data : Bytes) (off : Nat)
    (p : Part.AllAt data off (Value.parts vs)) :
    many (t.decode data) vs.length off =
      some (vs, off + Part.headsSize (Value.parts vs)) := by
  match vs, h with
  | [], _ => rfl
  | v :: vs, h =>
    simp only [Value.AllHaveTy] at h
    simp only [Value.parts, Part.AllAt] at p
    have a := decode_at v t h.1 data off p.1
    have b := many_at vs t h.2 data _ p.2
    simp only [List.length_cons, many, a, b, Option.bind_eq_bind, Option.bind_some, Value.parts,
      Part.headsSize, Nat.add_assoc]
    rfl

end

/-- Reading gives back what was written, whatever comes after it. -/
theorem decode_encode_append {vs : List Value} {ts : List Ty} (h : Value.EachHasTy vs ts)
    (small : (encode vs).length < 2 ^ 32) (e : encode vs = [] → ts = []) (rest : Bytes) :
    decode ts (encode vs ++ rest) = .ok vs := by
  have r := decodeEach_at vs ts h _ 0 (Part.allAt_join small rest)
  have data : ((encode vs ++ rest).isEmpty && !ts.all Ty.isVoid) = false := by
    cases l : encode vs with
    | nil => simp [e l]
    | cons b bs => rfl
  rw [decode, data, if_neg Bool.false_ne_true, encode, r]

/-- Arguments of the same types show in what is written. -/
theorem encode_inj {vs ws : List Value} {ts : List Ty} (h : Value.EachHasTy vs ts)
    (h' : Value.EachHasTy ws ts) (small : (encode vs).length < 2 ^ 32) (some : encode vs ≠ [])
    (same : encode vs = encode ws) : vs = ws := by
  have read := decode_encode_append h small (fun e => absurd e some) []
  have read' := decode_encode_append h' (same ▸ small) (fun e => absurd (same.trans e) some) []
  rw [← same, read] at read'
  injection read'

theorem allHaveTy_map {t : Ty} {g : α → Value} (h : ∀ a, (g a).HasTy t) (as : List α) :
    Value.AllHaveTy (as.map g) t := by
  induction as with
  | nil => trivial
  | cons a as ih => exact ⟨h a, ih⟩

@[simp] theorem length_parts (vs : List Value) : (Value.parts vs).length = vs.length := by
  induction vs with
  | nil => rfl
  | cons v vs ih => simp [Value.parts, ih]

theorem length_le_join {ps : List Part} (h : ∀ p ∈ ps, p.dynamic) :
    32 * ps.length ≤ (Part.join ps).length := by
  have heads : Part.headsSize ps = 32 * ps.length := by
    induction ps with
    | nil => rfl
    | cons p ps ih =>
      rw [Part.headsSize, ih fun q m => h q (List.mem_cons_of_mem p m),
        Part.headSize, if_pos (h p List.mem_cons_self), List.length_cons]
      omega
  simp only [Part.join, List.length_append, Part.length_heads, heads]
  omega

theorem length_encode_array (vs : List Value) :
    (encode [.array vs]).length = 64 + (Part.join (Value.parts vs)).length := by
  simp [encode, Value.parts, Value.dynamic, Value.body, Part.join, Part.heads, Part.tails]
  omega

theorem dynamic_of_all {vs : List Value} {t : Ty} (h : Value.AllHaveTy vs t)
    (d : t.dynamic = true) : ∀ p ∈ Value.parts vs, p.dynamic := by
  induction vs with
  | nil => simp [Value.parts]
  | cons v vs ih =>
    simp only [Value.AllHaveTy] at h
    simp only [Value.parts, List.forall_mem_cons]
    exact ⟨(Value.dynamic_eq v t h.1).trans d, ih h.2⟩

/-- Items behind offsets are too many to count only where they are too long to write. -/
theorem decode_encode_array {vs : List Value} {t : Ty} (h : Value.AllHaveTy vs t)
    (d : t.dynamic = true) (small : (encode [.array vs]).length < 2 ^ 32) (rest : Bytes) :
    decode [.array t] (encode [.array vs] ++ rest) = .ok [.array vs] := by
  have l := length_encode_array vs
  have count := length_le_join (dynamic_of_all h d)
  rw [length_parts] at count
  apply decode_encode_append
  · exact ⟨⟨by omega, h⟩, trivial⟩
  · exact small
  · intro e
    rw [e, List.length_nil] at l
    omega

namespace Value

/-- Bytes and texts whose length can be written, though what is written may be longer than that. -/
def Short : Value → Prop
  | .bytes b => b.length < 2 ^ 32
  | .string s => (Bytes.ofText s).length < 2 ^ 32
  | _ => True

variable {v : Value} {t : Ty}

theorem countedAt_encode {b : Bytes} (d : v.dynamic = true) (body : v.body = counted b)
    (short : b.length < 2 ^ 32) : countedAt (encode [v]) 0 = some b := by
  have whole : encode [v] = word 32 ++ counted b := by
    simp [encode, parts, Part.join, Part.heads, Part.tails, Part.headsSize, Part.headSize, d, body]
  have tail := holds_append_right (word 32) (counted b)
  rw [length_word] at tail
  obtain ⟨l, r⟩ := holds_counted tail
  have start := sizeAt_of_holds (holds_append_left (word 32) (counted b)) (by decide)
  simp only [countedAt, whole, start, sizeAt_of_holds l short, Option.bind_eq_bind, Option.bind_some]
  exact bytesAt_eq_some.mpr ⟨r, rfl⟩

theorem decode_encode_static (h : v.HasTy t) (d : v.dynamic = false) (size : v.body.length = 32) :
    decode [t] (encode [v]) = .ok [v] := by
  have l : (encode [v]).length = 32 := by
    simp [encode, parts, Part.join, Part.heads, Part.tails, d, size]
  have each : EachHasTy [v] [t] := ⟨h, trivial⟩
  rw [← List.append_nil (encode [v])]
  refine decode_encode_append each (by omega) ?_ []
  intro none
  rw [none] at l
  cases l

theorem decode_encode_counted {b : Bytes} (d : v.dynamic = true) (body : v.body = counted b)
    (short : b.length < 2 ^ 32)
    (read : ∀ data, countedAt data 0 = some b → t.decode data 0 = some (v, 32)) :
    decode [t] (encode [v]) = .ok [v] := by
  have here := countedAt_encode d body short
  cases e : encode [v] with
  | nil =>
    rw [e] at here
    cases here
  | cons c cs =>
    rw [← e, decode, Ty.decodeEach, read _ here, e]
    rfl

/-- A value by itself may be as long as its length can be written. -/
theorem decode_encode_elementary (h : v.HasTy t) (e : t.isElementary = true) (short : v.Short) :
    decode [t] (encode [v]) = .ok [v] := by
  cases v with
  | address | bool | uint | int => exact decode_encode_static h rfl (length_word _)
  | fixedBytes b =>
    refine decode_encode_static h rfl ?_
    cases t <;> simp only [HasTy] at h
    simp only [body, padRight, List.length_append, List.length_replicate]
    omega
  | bytes b =>
    cases t <;> simp only [HasTy] at h
    refine decode_encode_counted (b := b) rfl rfl short ?_
    intro data here
    simp only [Ty.decode, here, Option.bind_eq_bind, Option.bind_some]
    rfl
  | string s =>
    cases t <;> simp only [HasTy] at h
    refine decode_encode_counted (b := Bytes.ofText s) rfl rfl short ?_
    intro data here
    simp only [Ty.decode, here, Option.bind_eq_bind, Option.bind_some, h]
    rfl
  | array | vector | tuple =>
    cases t <;> simp only [HasTy] at h
    cases e

end Value

end PoolSnapshot.Abi
