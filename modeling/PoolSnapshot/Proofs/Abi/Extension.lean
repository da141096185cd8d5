import PoolSnapshot.Proofs.Abi.Layout

/-!
Reading never looks at how long the data is except to find bytes in it: whatever is read from it is
read from it still when bytes are appended.
-/
namespace PoolSnapshot.Abi

theorem bytesAt_append {data b : Bytes} (h : bytesAt data off size = some b) (s : Bytes) :
    bytesAt (data ++ s) off size = some b := by
  obtain ⟨p, l⟩ := bytesAt_eq_some.mp h
  exact bytesAt_eq_some.mpr ⟨p.append s, l⟩

theorem wordAt_append {data : Bytes} (h : wordAt data off = some n) (s : Bytes) :
    wordAt (data ++ s) off = some n := by
  simp only [wordAt, Option.map_eq_some_iff] at h ⊢
  obtain ⟨b, e, rfl⟩ := h
  exact ⟨b, bytesAt_append e s, rfl⟩

theorem sizeAt_append {data : Bytes} (h : sizeAt data off = some n) (s : Bytes) :
    sizeAt (data ++ s) off = some n := by
  simp only [sizeAt, Option.bind_eq_bind, Option.bind_eq_some_iff] at h ⊢
  obtain ⟨m, e, l⟩ := h
  exact ⟨m, wordAt_append e s, l⟩

theorem le_length_of_sizeAt {data : Bytes} (h : sizeAt data off = some n) :
    off + 32 ≤ data.length := by
  simp only [sizeAt, wordAt, Option.bind_eq_bind, Option.bind_eq_some_iff,
    Option.map_eq_some_iff] at h
  obtain ⟨-, ⟨b, e, -⟩, -⟩ := h
  obtain ⟨p, l⟩ := bytesAt_eq_some.mp e
  have := p.length_le
  rw [List.length_drop] at this
  omega

theorem countedAt_append {data b : Bytes} (h : countedAt data off = some b) (s : Bytes) :
    countedAt (data ++ s) off = some b := by
  simp only [countedAt, Option.bind_eq_bind, Option.bind_eq_some_iff] at h ⊢
  obtain ⟨start, e, size, n, r⟩ := h
  exact ⟨start, sizeAt_append e s, size, sizeAt_append n s, bytesAt_append r s⟩

theorem many_mono {α : Type} {f g : Nat → Option (α × Nat)}
    (h : ∀ off r, f off = some r → g off = some r) {r : List α × Nat} (m : many f n off = some r) :
    many g n off = some r := by
  induction n generalizing off r with
  | zero => exact m
  | succ n ih =>
    simp only [many, Option.bind_eq_bind, Option.bind_eq_some_iff] at m ⊢
    obtain ⟨v, e, vs, es, q⟩ := m
    exact ⟨v, h _ _ e, vs, ih es, q⟩

theorem group_append {data inner : Bytes} (h : group d data off = some (inner, first)) (s : Bytes) :
    group d (data ++ s) off = some (inner ++ s, first) := by
  cases d with
  | true =>
    simp only [group, if_true, Option.bind_eq_bind, Option.bind_eq_some_iff] at h ⊢
    obtain ⟨start, e, l⟩ := h
    refine ⟨start, sizeAt_append e s, ?_⟩
    split at l
    case isTrue le =>
      cases l
      rw [if_pos (by rw [List.length_append]; omega), List.drop_append_of_le_length le]
    case isFalse => contradiction
  | false =>
    cases h
    rfl

mutual

theorem decode_append (t : Ty) {data : Bytes} {off : Nat} {r : Value × Nat}
    (h : t.decode data off = some r) (s : Bytes) : t.decode (data ++ s) off = some r := by
  cases t with
  | fixedBytes n =>
    simp only [Ty.decode, Option.bind_eq_bind, Option.bind_eq_some_iff] at h ⊢
    obtain ⟨b, e, q⟩ := h
    exact ⟨b, bytesAt_append e s, q⟩
  | bytes | string =>
    simp only [Ty.decode, Option.bind_eq_bind, Option.bind_eq_some_iff] at h ⊢
    obtain ⟨b, e, q⟩ := h
    exact ⟨b, countedAt_append e s, q⟩
  | array t =>
    simp only [Ty.decode, Option.bind_eq_bind, Option.bind_eq_some_iff] at h ⊢
    obtain ⟨start, e, n, l, items, m, q⟩ := h
    refine ⟨start, sizeAt_append e s, n, sizeAt_append l s, items, ?_, q⟩
    rw [List.drop_append_of_le_length (le_length_of_sizeAt l)]
    exact many_mono (fun _ _ h => decode_append t h s) m
  | vector t n =>
    simp only [Ty.decode, Option.bind_eq_bind, Option.bind_eq_some_iff] at h ⊢
    obtain ⟨⟨inner, first⟩, g, items, m, q⟩ := h
    exact ⟨(inner ++ s, first), group_append g s, items,
      many_mono (fun _ _ h => decode_append t h s) m, q⟩
  | tuple ts =>
    simp only [Ty.decode, Option.bind_eq_bind, Option.bind_eq_some_iff] at h ⊢
    obtain ⟨⟨inner, first⟩, g, items, m, q⟩ := h
    exact ⟨(inner ++ s, first), group_append g s, items, decodeEach_append ts m s, q⟩
  | _ =>
    simp only [Ty.decode, Option.bind_eq_bind, Option.bind_eq_some_iff] at h ⊢
    obtain ⟨n, e, q⟩ := h
    exact ⟨n, wordAt_append e s, q⟩

theorem decodeEach_append (ts : List Ty) {data : Bytes} {off : Nat} {r : List Value × Nat}
    (h : Ty.decodeEach ts data off = some r) (s : Bytes) :
    Ty.decodeEach ts (data ++ s) off = some r := by
  cases ts with
  | nil => exact h
  | cons t ts =>
    simp only [Ty.decodeEach, Option.bind_eq_bind, Option.bind_eq_some_iff] at h ⊢
    obtain ⟨v, e, vs, es, q⟩ := h
    exact ⟨v, decode_append t e s, vs, decodeEach_append ts es s, q⟩

end

/-- An answer that could be read is read the same with more bytes after it. -/
theorem decode_ok_append {ts : List Ty} {data : Bytes} (h : decode ts data = .ok vs) (s : Bytes) :
    decode ts (data ++ s) = .ok vs := by
  simp only [decode] at h ⊢
  split at h
  case isTrue => contradiction
  case isFalse n =>
    have more : ¬((data ++ s).isEmpty && !ts.all Ty.isVoid) = true := by
      cases data with
      | nil => simp_all
      | cons b data => simp
    rw [if_neg more]
    cases e : Ty.decodeEach ts data 0 with
    | none => simp [e] at h
    | some r =>
      rw [e] at h
      rw [decodeEach_append ts e s]
      exact h

end PoolSnapshot.Abi
