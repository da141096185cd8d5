import PoolSnapshot.Proofs.Chunk.Words
import PoolSnapshot.Proofs.Schedule.Chunked

/-!
Slices with the ranges that stepping by words finds. The slices are always the right ones, one after another and
each once; their ranges are their own unless the sum for the last one is no word, which only more than `2 ^ 63`
records can bring about.
-/
namespace PoolSnapshot

open Chunk (count found ranges slices step)

variable {Q A ε R : Type}

namespace Task

variable {size : UInt64} {records : List R} {worker : Range → List R → Worker Q A ε R} {τs : List (Task Q A ε R)}

theorem assign_take (ws : List Range) (size : Nat) (records : List R) (worker : Range → List R → Worker Q A ε R) :
    assign (ws.take (count records.length size)) size records worker = assign ws size records worker := by
  have length := Chunk.length_slices size records
  have whole : (slices size records).take (count records.length size) = slices size records :=
    List.take_of_length_le (Nat.le_of_eq length)
  have pairs : (ws.zip (slices size records)).take (count records.length size) = ws.zip (slices size records) :=
    List.take_of_length_le (by rw [List.length_zip, length]; exact Nat.min_le_right _ _)
  rw [assign, assign, ← pairs, List.zip_eq_zipWith, List.zip_eq_zipWith, List.take_zipWith, whole]

/-- However stepping by words goes on, each slice has its worker, made for its range as stepping finds it. So what
holds of chunks with any workers holds of these. -/
theorem walked_eq (word : records.length < 2 ^ 64) (done : walked size records worker = some τs) :
    τs = chunked size.toNat records fun r => worker (found records.length size.toNat r) := by
  obtain ⟨ws, walk, rfl⟩ := Option.map_eq_some_iff.mp done
  have first := Chunk.take_of_walkFrom (Chunk.walkFrom_of_walk walk)
  rw [UInt64.toNat_ofNat_of_lt' word] at first
  rw [← assign_take, first, chunked, assign, assign, List.zip_map_left, List.map_map]
  rfl

theorem walked_eq_chunked (half : records.length ≤ 2 ^ 63)
    (memory : 16 * count records.length size.toNat < 2 ^ 63) :
    walked size records worker = some (chunked size.toNat records worker) := by
  have word : records.length < 2 ^ 64 := by omega
  have value : (UInt64.ofNat records.length).toNat = records.length := UInt64.toNat_ofNat_of_lt' word
  have walk : Chunk.walk (.ofNat records.length) size = some (ranges records.length size.toNat) := by
    have whole := Chunk.walk_eq_ranges_iff (.ofNat records.length) size
    rw [value] at whole
    exact whole.mpr ⟨Chunk.count_mul_lt half (Chunk.step_lt size), memory⟩
  rw [walked, walk]
  rfl

/-- Whatever moves when, slices come to what they come to one after another, and each record is in one of them.
The range that a worker is handed is that of its slice, unless the sum for the last one is no word. -/
theorem walked_any_order (answer : Q → A) (size : UInt64) (limit : Nat) (records : List R)
    (worker : Range → List R → Worker Q A ε R) (word : records.length < 2 ^ 64) :
    let rs := ranges records.length size.toNat
    let handed := found records.length size.toNat
    (∀ i < records.length, ∃! k : Nat, ∃ r, rs[k]? = some r ∧ r.start ≤ i ∧ i < r.stop) ∧
    ((∀ r ∈ rs, handed r = r) ↔ rs.length * step size.toNat < 2 ^ 64) ∧
    (records.length ≤ 2 ^ 63 → (∀ r ∈ rs, handed r = r) ∧
      (16 * rs.length < 2 ^ 63 → ∃ τs, walked size records worker = some τs)) ∧
    (WellFounded fun π' π : Progress Q A ε R => ∃ l, π.Step limit l π') ∧
    ∀ τs, walked size records worker = some τs →
      τs = rs.map (fun r => ⟨r.part records, worker (handed r) (r.part records)⟩) ∧
      ∀ asked π, (Progress.start τs).Reaches limit asked π →
        π.waiting = τs.drop π.cells.length ∧
        ((∀ r, ∀ m ∈ worker (handed r) (r.part records), m.InPlace) →
          π.blocks = rs.map (·.part π.records) ∧
          ∀ l π', π.Step limit l π' →
            ∃ (k : Nat) (r : Range), rs[k]? = some r ∧ (∀ j, j ≠ k → π'.cells[j]? = π.cells[j]?) ∧
              ∀ i, ¬(r.start ≤ i ∧ i < r.stop) → π'.records[i]? = π.records[i]?) ∧
        (Answered answer asked →
          (∀ out, π.Ends (.ok out) → runAll answer τs = .ok out) ∧
          ((∀ τ ∈ τs, (τ.alone answer).2 = none) → π.failure? = none ∧
            ∃ asked' π' out, π.Reaches limit asked' π' ∧ Answered answer asked' ∧ π'.Ends (.ok out))) := by
  intro rs handed
  have length : rs.length = count records.length size.toNat := Chunk.length_ranges _ _
  have own := Chunk.found_eq_iff word (Chunk.step_lt size)
  rw [← length] at own
  refine ⟨fun i => Chunk.existsUnique_range size.toNat, own, ?half, Progress.step_wellFounded limit, ?done⟩
  case half =>
    intro half
    have fits := Chunk.count_mul_lt half (Chunk.step_lt size)
    rw [← length] at fits
    exact ⟨own.mpr fits, fun memory => ⟨_, walked_eq_chunked half (length ▸ memory)⟩⟩
  case done =>
    intro τs done
    cases walked_eq word done
    refine ⟨chunked_eq _ _ _, fun asked π reached => ⟨reached.waiting rfl, ?_, ?_⟩⟩
    · intro inPlace
      obtain ⟨-, length, blocks⟩ := reached.chunked inPlace
      refine ⟨?_, fun l π' => reached.frame inPlace⟩
      rw [blocks, Chunk.slices_eq, length]
    · intro answered
      exact ⟨fun out => reached.runAll_eq answered, fun alone =>
        ⟨reached.unfailed answered alone, reached.exists_ok answered alone⟩⟩

/-- The second of two workers starts last and is done first. -/
theorem walked_any_order_backwards :
    let worker (r : Range) (_ : List Nat) : Worker Unit Unit Unit Nat :=
      [.change fun rs => (rs.map (· + r.start), none)]
    ∃ τs π, [1, 2, 3].length < 2 ^ 64 ∧ walked 2 [1, 2, 3] worker = some τs ∧
      (Progress.start τs).Reaches 2 [] π ∧ π.Ends (.ok [1, 2, 5]) ∧ runAll id τs = .ok [1, 2, 5] ∧
      π.blocks = [[1, 2], [5]] := by
  intro worker
  have done : walked 2 [1, 2, 3] worker = some (chunked 2 [1, 2, 3] worker) :=
    walked_eq_chunked (by decide) (by decide)
  have e : chunked 2 [1, 2, 3] worker = [⟨[1, 2], worker ⟨0, 2⟩ []⟩, ⟨[3], worker ⟨2, 3⟩ []⟩] :=
    chunked_eq 2 [1, 2, 3] worker
  let π : Progress Unit Unit Unit Nat := ⟨[.finished [1, 2], .finished [5]], []⟩
  have ends : π.Ends (.ok [1, 2, 5]) := .ok [[1, 2], [5]]
  have run : (Progress.start (chunked 2 [1, 2, 3] worker)).Reaches 2 [] π := by
    let first := Cell.running [1, 2] (worker ⟨0, 2⟩ [])
    have move (pre post : List (Cell Unit Unit Unit Nat)) {c c' : Cell Unit Unit Unit Nat}
        (ok : Progress.failure? ⟨pre ++ c :: post, []⟩ = none) (m : c.Step none c') :
        Progress.Step 2 ⟨pre ++ c :: post, []⟩ none ⟨pre ++ c' :: post, []⟩ := .move ok m
    rw [e]
    refine .step (.start rfl (by decide)) (.step (.start rfl (by decide)) ?_)
    refine .step (move [first] [] rfl (.change rfl)) ?_
    refine .step (move [first] [] rfl .finish) ?_
    refine .step (move [] [.finished [5]] rfl (.change rfl)) ?_
    exact .step (move [] [.finished [5]] rfl .finish) (.refl π)
  have inPlace : ∀ r, ∀ m ∈ worker (found 3 2 r) (r.part [1, 2, 3]), m.InPlace := by
    intro r
    exact List.forall_mem_singleton.mpr fun rs => List.length_map _
  obtain ⟨-, -, -, -, each⟩ := walked_any_order id 2 2 [1, 2, 3] worker (by decide)
  obtain ⟨-, reached⟩ := each _ done
  obtain ⟨-, inplace, any⟩ := reached [] π run
  exact ⟨_, π, by decide, done, run, ends, (any .nil).1 _ ends, (inplace inPlace).1⟩

/-- Workers that only refuse a range with its end before its beginning: the second of two is handed one, though
one after another the slices have their own. For other sizes no worker is ever made. -/
theorem walked_reversed :
    let worker (r : Range) (_ : List Unit) : Worker Unit Unit Unit Unit :=
      if r.start ≤ r.stop then [] else Worker.fail ()
    let records := List.replicate 13835058055282163713 ()
    (∃ τs, walked 11529215046068469760 records worker = some τs ∧ runAll id τs = .error ()) ∧
      runAll id (chunked 11529215046068469760 records worker) = .ok records ∧
      walked 9223372036854775808 (List.replicate 18446744073709551615 ()) worker = none := by
  intro worker records
  have length : records.length = 13835058055282163713 := List.length_replicate
  clear_value records
  have cut : ranges records.length 11529215046068469760 =
      [⟨0, 11529215046068469760⟩, ⟨11529215046068469760, 13835058055282163713⟩] := by
    rw [length]
    decide +kernel
  have idle {start stop : Nat} (forward : start ≤ stop) : worker ⟨start, stop⟩ = fun _ => [] :=
    funext fun _ => if_pos forward
  have refuses {start stop : Nat} (back : ¬start ≤ stop) : worker ⟨start, stop⟩ = fun _ => Worker.fail () :=
    funext fun _ => if_neg back
  refine ⟨?reversed, ?own, ?ever⟩
  case reversed =>
    obtain ⟨τs, done⟩ : ∃ τs, walked 11529215046068469760 records worker = some τs := by
      have walk : Chunk.walk (.ofNat 13835058055282163713) 11529215046068469760 = some _ := Chunk.walk_back
      exact ⟨_, by rw [walked, length, walk, Option.map_some]⟩
    have first : found 13835058055282163713 11529215046068469760 ⟨0, 11529215046068469760⟩ =
        ⟨0, 11529215046068469760⟩ := by decide +kernel
    have second : found 13835058055282163713 11529215046068469760 ⟨11529215046068469760, 13835058055282163713⟩ =
        ⟨11529215046068469760, 4611686018427387904⟩ := by decide +kernel
    have size : (11529215046068469760 : UInt64).toNat = 11529215046068469760 := by decide +kernel
    refine ⟨τs, done, ?_⟩
    rw [walked_eq (by omega) done, chunked_eq, size, cut, length, List.map_cons, List.map_cons, List.map_nil, first,
      second, idle (by decide), refuses (by decide)]
    rfl
  case own =>
    have whole := Chunk.flatten_slices 11529215046068469760 records
    rw [Chunk.slices_eq, cut] at whole
    rw [chunked_eq, cut, List.map_cons, List.map_cons, List.map_nil, idle (by decide), idle (by decide)]
    exact congrArg Except.ok whole
  case ever =>
    have walk : Chunk.walk (.ofNat 18446744073709551615) 9223372036854775808 = none := Chunk.walk_ever
    rw [walked, List.length_replicate, walk, Option.map_none]

end Task

end PoolSnapshot
