import PoolSnapshot.Schedule.Clock
import PoolSnapshot.Proofs.Schedule.Ownership
import PoolSnapshot.Proofs.Schedule.Sequential
import Mathlib.Algebra.GroupWithZero.Nat

/-!
Tasks on a clock. When answers come is one order of moves among those that there are, and the clock does
not stop before the tasks have come to an end.
-/
namespace PoolSnapshot

open Progress (Reaches Ends)

variable {σ Q A ε R : Type}

namespace Clock

variable {peer : Peer σ Q A}

/-- What the peer answers to one question after another, at times that never go back. -/
inductive Serves (peer : Peer σ Q A) : Nat → σ → List (Q × A) → Nat → σ → Prop
  | idle (later : now ≤ now') : Serves peer now s [] now' s
  | ask (later : now ≤ t) (h : peer t q s = (s', a, d)) (rest : Serves peer t s' asked now' s'') :
      Serves peer now s ((q, a) :: asked) now' s''

namespace Serves

variable {s s' s'' : σ} {asked asked' : List (Q × A)}

theorem sooner (h : now ≤ now') (t : Serves peer now' s asked now'' s') : Serves peer now s asked now'' s' := by
  cases t with
  | idle later => exact .idle (Nat.le_trans h later)
  | ask later a rest => exact .ask (Nat.le_trans h later) a rest

theorem trans (h : Serves peer now s asked now' s') (t : Serves peer now' s' asked' now'' s'') :
    Serves peer now s (asked ++ asked') now'' s'' := by
  induction h with
  | idle later => exact t.sooner later
  | ask later a _ ih => exact .ask later a (ih t)

theorem answered {answer : Q → A} (always : ∀ now q s, (peer now q s).2.1 = answer q)
    (h : Serves peer now s asked now' s') : Answered answer asked := by
  induction h with
  | idle => exact .nil
  | @ask _ t q s s' a d _ _ _ _ h _ ih =>
    have here := always t q s
    rw [h] at here
    exact List.forall_mem_cons.mpr ⟨here, ih⟩

end Serves

/-- The cell of a worker that paused. -/
def Pause.cell (rs : List R) : Pause Q A ε R → Cell Q A ε R
  | .finished => .finished rs
  | .failed e => .failed rs e
  | .asleep _ f ω => .running rs (.change f :: ω)

theorem Pause.records_cell (rs : List R) (p : Pause Q A ε R) : (p.cell rs).records = rs := by
  cases p <;> rfl

/-- Up to where it has to wait, a worker goes one of its ways. -/
theorem advance_goes {ω : Worker Q A ε R} {p : Pause Q A ε R} {s s' : σ}
    (h : advance peer now ω rs s = (s', rs', p)) :
    ∃ heard due, ω.Goes rs heard due (p.cell rs') ∧ Serves peer now s (heard ++ due) now s' := by
  induction ω generalizing rs s with
  | nil =>
    cases h
    exact ⟨[], [], .finish, .idle (Nat.le_refl _)⟩
  | cons m ω ih =>
    cases m with
    | change f =>
      rw [advance] at h
      split at h
      · next e =>
        obtain ⟨heard, due, g, t⟩ := ih h
        exact ⟨heard, due, .change e g, t⟩
      · next e =>
        cases h
        exact ⟨[], [], .fail e, .idle (Nat.le_refl _)⟩
    | ask q f =>
      rw [advance] at h
      split at h
      · next a =>
        split at h
        · next e =>
          obtain ⟨heard, due, g, t⟩ := ih h
          exact ⟨_, due, .took e g, .ask (Nat.le_refl _) a t⟩
        · next e =>
          cases h
          exact ⟨_, [], .refused e, .ask (Nat.le_refl _) a (.idle (Nat.le_refl _))⟩
      · next _ a =>
        cases h
        exact ⟨[], _, .asked _, .ask (Nat.le_refl _) a (.idle (Nat.le_refl _))⟩

/-- A worker that waits has asked one question more. -/
theorem advance_asleep {ω ω' : Worker Q A ε R} {s s' : σ}
    (h : advance peer now ω rs s = (s', rs', .asleep t f ω')) :
    now ≤ t ∧ ω'.questions.length < ω.questions.length := by
  induction ω generalizing rs s with
  | nil => cases h
  | cons m ω ih =>
    cases m with
    | change g =>
      rw [advance] at h
      split at h
      · exact ih h
      · cases h
    | ask q g =>
      rw [advance] at h
      split at h
      · split at h
        · exact (ih h).imp_right Nat.lt_succ_of_lt
        · cases h
      · cases h
        exact ⟨Nat.le_add_right _ _, Nat.lt_succ_self _⟩

theorem earliest_eq_none {ss : List (Sleeper Q A ε R)} (h : earliest ss = none) : ss = [] := by
  cases ss with
  | nil => rfl
  | cons s ss =>
    rw [earliest] at h
    split at h
    · cases h
    · split at h <;> cases h

theorem earliest_eq_some {ss rest : List (Sleeper Q A ε R)} (h : earliest ss = some (s, rest)) :
    ss.Perm (s :: rest) ∧ ∀ t ∈ rest, s.wake ≤ t.wake := by
  induction ss generalizing s rest with
  | nil => cases h
  | cons r ss ih =>
    rw [earliest] at h
    split at h
    · next none =>
      cases h
      rw [earliest_eq_none none]
      exact ⟨.refl _, nofun⟩
    · next t ts first =>
      obtain ⟨perm, least⟩ := ih first
      split at h
      · next le =>
        cases h
        refine ⟨.refl _, fun u m => ?_⟩
        rcases List.mem_cons.mp (perm.mem_iff.mp m) with rfl | m
        · exact le
        · exact Nat.le_trans le (least u m)
      · next gt =>
        cases h
        refine ⟨(perm.cons r).trans (.swap ..), fun u m => ?_⟩
        rcases List.mem_cons.mp m with rfl | m
        · exact Nat.le_of_not_le gt
        · exact least u m

/-- The workers that are running, each with the number of its cell. -/
def active : Nat → List (Cell Q A ε R) → List (Nat × Worker Q A ε R)
  | _, [] => []
  | k, .running _ ω :: cs => (k, ω) :: active (k + 1) cs
  | k, .finished _ :: cs | k, .failed _ _ :: cs => active (k + 1) cs

theorem active_append (k : Nat) (cs ds : List (Cell Q A ε R)) :
    active k (cs ++ ds) = active k cs ++ active (k + cs.length) ds := by
  induction cs generalizing k with
  | nil => rfl
  | cons c cs ih =>
    have next : k + 1 + cs.length = k + (cs.length + 1) := by omega
    cases c <;> simp [active, ih, next]

theorem length_active (k : Nat) (cs : List (Cell Q A ε R)) : (active k cs).length = cs.countP Cell.isRunning := by
  induction cs generalizing k with
  | nil => rfl
  | cons c cs ih => cases c <;> simp [active, List.countP_cons, Cell.isRunning, ih]

theorem exists_of_active {cs : List (Cell Q A ε R)} (m : (i, ω) ∈ active k cs) :
    ∃ pre rs post, cs = pre ++ .running rs ω :: post ∧ i = k + pre.length := by
  induction cs generalizing k with
  | nil => cases m
  | cons c cs ih =>
    have later (m : (i, ω) ∈ active (k + 1) cs) :
        ∃ pre rs post, c :: cs = pre ++ .running rs ω :: post ∧ i = k + pre.length := by
      obtain ⟨pre, rs, post, rfl, rfl⟩ := ih m
      exact ⟨c :: pre, rs, post, rfl, by rw [List.length_cons]; omega⟩
    cases c with
    | finished | failed => exact later m
    | running rs ω' =>
      rcases List.mem_cons.mp m with h | m
      · cases h
        exact ⟨[], rs, cs, rfl, rfl⟩
      · exact later m

def Sleeper.worker (s : Sleeper Q A ε R) : Nat × Worker Q A ε R := (s.index, .change s.effect :: s.rest)

/-- Tasks that wait for a cell, each with the number of the cell that it will have. -/
def queue (k : Nat) (τs : List (Task Q A ε R)) : List (Nat × Worker Q A ε R) :=
  (τs.zipIdx k).map fun (τ, i) => (i, τ.worker)

/-- The floor shows the progress of its tasks: whoever is running sleeps, those apart that are awake. -/
structure Shows (awake : List (Nat × Worker Q A ε R)) (φ : Floor σ Q A ε R) (π : Progress Q A ε R) :
    Prop where
  records : φ.records = π.blocks
  waiting : φ.waiting = queue π.cells.length π.waiting
  workers : (awake ++ φ.asleep.map Sleeper.worker).Perm (active 0 π.cells)
  due : ∀ s ∈ φ.asleep, φ.now ≤ s.wake
  fine : π.failure? = none

namespace Shows

variable {φ φ' : Floor σ Q A ε R} {π : Progress Q A ε R} {τs : List (Task Q A ε R)}

theorem running_eq (h : Shows [] φ π) : φ.asleep.length = π.running := by
  rw [Progress.running, ← length_active 0, ← h.workers.length_eq]
  simp

theorem start {cs : List (Cell Q A ε R)} {τ : Task Q A ε R} (h : Shows [] φ ⟨cs, τ :: τs⟩) :
    Shows [(cs.length, τ.worker)] { φ with waiting := queue (cs.length + 1) τs }
      ⟨cs ++ [.running τ.records τ.worker], τs⟩ where
  records := by simpa [Progress.blocks, Cell.records] using h.records
  waiting := by simp
  workers := by
    rw [active_append, Nat.zero_add]
    exact List.perm_append_comm.trans (h.workers.append_right _)
  due := h.due
  fine := by simpa [Progress.failure?, Cell.failure?] using h.fine

theorem wake (h : Shows [] φ π) (first : earliest φ.asleep = some (s, ss)) :
    Shows [s.worker] { φ with now := s.wake, asleep := ss } π where
  records := h.records
  waiting := h.waiting
  workers := ((earliest_eq_some first).1.symm.map _).trans h.workers
  due := (earliest_eq_some first).2
  fine := h.fine

/-- The worker that is awake has its cell, and all others that are running sleep. -/
theorem exists_awake (h : Shows [(i, ω)] φ π) :
    ∃ cs rs ds τs, π = ⟨cs ++ .running rs ω :: ds, τs⟩ ∧ i = cs.length ∧ φ.recordsOf i = rs ∧
      (φ.asleep.map Sleeper.worker).Perm (active 0 cs ++ active (cs.length + 1) ds) ∧
      Progress.failure? ⟨cs ++ ds, τs⟩ = none := by
  obtain ⟨cells, τs⟩ := π
  obtain ⟨cs, rs, ds, rfl, here⟩ := exists_of_active (h.workers.subset List.mem_cons_self)
  obtain rfl : i = cs.length := here.trans (Nat.zero_add _)
  refine ⟨cs, rs, ds, τs, rfl, rfl, ?_, ?_, ?_⟩
  · simp [Floor.recordsOf, h.records, Progress.blocks, Cell.records]
  · have workers := h.workers
    rw [active_append, Nat.zero_add] at workers
    exact (workers.trans List.perm_middle).cons_inv
  · simpa [Progress.failure?, Cell.failure?] using h.fine

end Shows

/-- Questions that may still be asked, and tasks that may still start. -/
def Floor.left (φ : Floor σ Q A ε R) : Nat :=
  (φ.waiting.map (·.2.questions.length + 1)).sum + (φ.asleep.map (·.rest.questions.length + 1)).sum

/-- What the tasks came to. -/
def Floor.result (φ : Floor σ Q A ε R) : Option ε → Except ε (List R)
  | none => .ok φ.records.flatten
  | some e => .error e

variable {φ φ' : Floor σ Q A ε R} {π : Progress Q A ε R}

/-- The worker that is awake goes on until it is not, or fails. -/
theorem drive_reaches (h : Shows [(i, ω)] φ π) (limit : Nat) (d : φ.drive peer i ω = (φ', r)) :
    ∃ asked π', Reaches limit π asked π' ∧ Serves peer φ.now φ.peer asked φ'.now φ'.peer ∧
      φ'.records = π'.blocks ∧ (r = none → Shows [] φ' π' ∧ φ'.left ≤ φ.left + ω.questions.length) ∧
      ∀ e, r = some e → π'.failure? = some e := by
  obtain ⟨cs, rs, ds, τs, rfl, rfl, own, others, fine⟩ := h.exists_awake
  rw [Floor.drive, own] at d
  cases a : advance peer φ.now ω rs φ.peer with
  | mk s' paused =>
    obtain ⟨rs', p⟩ := paused
    rw [a] at d
    obtain ⟨heard, due, goes, serves⟩ := advance_goes a
    have reaches := Progress.reaches_goes goes limit fine
    have records : φ.records.set cs.length rs' = Progress.blocks ⟨cs ++ p.cell rs' :: ds, τs⟩ := by
      simp [h.records, Progress.blocks, Pause.records_cell]
    have waiting : φ.waiting = queue (cs ++ p.cell rs' :: ds).length τs := by
      simpa using h.waiting
    have failure := Progress.failure?_at fine (p.cell rs')
    refine ⟨_, _, reaches, ?_⟩
    cases p with
    | finished =>
      cases d
      refine ⟨serves, records, fun _ => ⟨⟨records, waiting, ?_, h.due, failure⟩, Nat.le_add_right _ _⟩, ?_⟩
      · rw [active_append, Nat.zero_add]
        exact others
      · intro e no
        cases no
    | failed e =>
      cases d
      refine ⟨serves, records, fun no => ?_, fun e' same => ?_⟩
      · cases no
      · cases same
        exact failure
    | asleep t f ω' =>
      cases d
      obtain ⟨later, fewer⟩ := advance_asleep a
      refine ⟨serves, records, fun _ => ⟨⟨records, waiting, ?_, ?_, failure⟩, ?_⟩, ?_⟩
      · rw [active_append, Nat.zero_add, List.nil_append, List.map_append]
        exact (List.perm_append_comm.trans (others.cons _)).trans List.perm_middle.symm
      · exact List.forall_mem_append.mpr ⟨h.due, List.forall_mem_singleton.mpr later⟩
      · simp only [Floor.left, List.map_append, List.sum_append, List.map_singleton, List.sum_singleton]
        omega
      · intro e no
        cases no

/-- What a turn of the loop leaves to be done. -/
def proceed (peer : Peer σ Q A) (limit fuel : Nat) :
    Floor σ Q A ε R × Option ε → Floor σ Q A ε R × Option ε
  | (φ, none) => loop peer limit fuel φ
  | (φ, some e) => (φ, some e)

theorem loop_start {ws : List (Nat × Worker Q A ε R)} (next : φ.waiting = (i, ω) :: ws)
    (room : φ.asleep.length < max 1 limit) :
    loop peer limit (fuel + 1) φ =
      proceed peer limit fuel (({ φ with waiting := ws } : Floor σ Q A ε R).drive peer i ω) := by
  simp only [loop, next, if_pos room]
  rfl

theorem loop_wake {s : Sleeper Q A ε R} (full : φ.waiting ≠ [] → ¬φ.asleep.length < max 1 limit)
    (first : earliest φ.asleep = some (s, ss)) :
    loop peer limit (fuel + 1) φ = proceed peer limit fuel
      (({ φ with now := s.wake, asleep := ss } : Floor σ Q A ε R).drive peer s.index
        (.change s.effect :: s.rest)) := by
  cases next : φ.waiting with
  | nil =>
    simp only [loop, next, first]
    rfl
  | cons w ws =>
    simp only [loop, next, first, if_neg (full (next ▸ List.cons_ne_nil _ _))]
    rfl

theorem loop_idle (waiting : φ.waiting = []) (asleep : φ.asleep = []) :
    loop peer limit (fuel + 1) φ = (φ, none) := by
  simp only [loop, waiting, asleep, earliest]

/-- Nothing to start and no one to wake: all tasks are finished. -/
theorem Shows.ends (h : Shows [] φ π) (waiting : φ.waiting = []) (asleep : φ.asleep = []) :
    π.Ends (φ.result none) := by
  obtain ⟨cs, τs⟩ := π
  have none_left : τs = [] := by simpa [queue, waiting] using h.waiting
  have idle : active 0 cs = [] := by simpa [asleep] using h.workers
  subst none_left
  rcases Progress.finished_or_running h.fine with ⟨rss, same⟩ | ⟨pre, rs, ω, post, same⟩
  · obtain rfl : cs = rss.map .finished := same
    have records : φ.records = rss := by simpa [Progress.blocks, Cell.records, Function.comp_def] using h.records
    rw [Floor.result, records]
    exact .ok rss
  · obtain rfl : cs = pre ++ .running rs ω :: post := same
    rw [active_append] at idle
    cases (List.append_eq_nil_iff.mp idle).2

theorem loop_reaches (limit : Nat) (h : Shows [] φ π) (enough : φ.left < fuel)
    (run : loop peer limit fuel φ = (φ', r)) :
    ∃ asked π', Reaches limit π asked π' ∧ Serves peer φ.now φ.peer asked φ'.now φ'.peer ∧
      φ'.records = π'.blocks ∧ π'.Ends (φ'.result r) := by
  induction fuel generalizing φ π with
  | zero => cases enough
  | succ fuel ih =>
    -- However a turn begins, one worker is driven, and there is less left than before.
    have turn {φ₀ : Floor σ Q A ε R} {π₀ : Progress Q A ε R} {i : Nat} {ω : Worker Q A ε R}
        (shows₀ : Shows [(i, ω)] φ₀ π₀) (less : φ₀.left + ω.questions.length < fuel)
        (run : proceed peer limit fuel (φ₀.drive peer i ω) = (φ', r)) :
        ∃ asked π', Reaches limit π₀ asked π' ∧ Serves peer φ₀.now φ₀.peer asked φ'.now φ'.peer ∧
          φ'.records = π'.blocks ∧ π'.Ends (φ'.result r) := by
      cases d : φ₀.drive peer i ω with
      | mk φ₁ o =>
        obtain ⟨asked, π₁, reaches, serves, records, ok, failed⟩ := drive_reaches shows₀ limit d
        rw [d] at run
        cases o with
        | some e =>
          cases run
          exact ⟨asked, π₁, reaches, serves, records, .error (failed e rfl)⟩
        | none =>
          obtain ⟨shows₁, le⟩ := ok rfl
          obtain ⟨asked', π', reaches', serves', ends⟩ := ih shows₁ (by omega) run
          exact ⟨_, π', reaches.trans reaches', serves.trans serves', ends⟩
    by_cases room : φ.waiting ≠ [] ∧ φ.asleep.length < max 1 limit
    · obtain ⟨some, room⟩ := room
      obtain ⟨cs, _ | ⟨τ, τs⟩⟩ := π
      · exact absurd h.waiting some
      have next : φ.waiting = (cs.length, τ.worker) :: queue (cs.length + 1) τs := h.waiting
      let φ₀ : Floor σ Q A ε R := { φ with waiting := queue (cs.length + 1) τs }
      have left : φ.left = φ₀.left + (τ.worker.questions.length + 1) := by
        simp only [φ₀, Floor.left, next, List.map_cons, List.sum_cons]
        omega
      have less : φ₀.left + τ.worker.questions.length < fuel := by omega
      rw [loop_start next room] at run
      obtain ⟨asked, π', reaches, serves, ends⟩ := turn h.start less run
      exact ⟨asked, π', .step (.start h.fine (h.running_eq ▸ room)) reaches, serves, ends⟩
    have full : φ.waiting ≠ [] → ¬φ.asleep.length < max 1 limit := not_and.mp room
    cases first : earliest φ.asleep with
    | none =>
      have asleep := earliest_eq_none first
      have waiting : φ.waiting = [] := by
        by_contra some
        have no_room := full some
        rw [asleep, List.length_nil] at no_room
        omega
      rw [loop_idle waiting asleep] at run
      cases run
      exact ⟨[], π, .refl π, .idle (Nat.le_refl _), h.records, h.ends waiting asleep⟩
    | some p =>
      obtain ⟨s, ss⟩ := p
      obtain ⟨perm, -⟩ := earliest_eq_some first
      let φ₀ : Floor σ Q A ε R := { φ with now := s.wake, asleep := ss }
      have left : φ.left = φ₀.left + (s.rest.questions.length + 1) := by
        simp only [φ₀, Floor.left, (perm.map _).sum_nat, List.map_cons, List.sum_cons]
        omega
      have less : φ₀.left + s.rest.questions.length < fuel := by omega
      rw [loop_wake full first] at run
      obtain ⟨asked, π', reaches, serves, ends⟩ := turn (h.wake first) less run
      have later : φ.now ≤ s.wake := h.due s (perm.mem_iff.mpr List.mem_cons_self)
      exact ⟨asked, π', reaches, serves.sooner later, ends⟩

/-- There are turns enough to start every task and to ask every question. -/
theorem left_le_turns (k n : Nat) (τs : List (Task Q A ε R)) :
    ((queue k τs).map (·.2.questions.length + 1)).sum + n ≤
      τs.foldl (fun n τ => n + τ.worker.length + 1) n := by
  induction τs generalizing k n with
  | nil => simp [queue]
  | cons τ τs ih =>
    have fewer : τ.worker.questions.length ≤ τ.worker.length := List.length_filterMap_le _ _
    refine Nat.le_trans ?_ (ih (k + 1) (n + τ.worker.length + 1))
    simp only [queue, List.zipIdx_cons, List.map_cons, List.sum_cons]
    omega

/-- On a clock, tasks take one of the orders that they may take, and come to an end. -/
theorem run_reaches (peer : Peer σ Q A) (limit : Nat) (τs : List (Task Q A ε R)) (now : Nat) (s : σ)
    (h : run peer limit τs now s = (φ, r)) :
    ∃ asked π, Reaches limit (.start τs) asked π ∧ Serves peer now s asked φ.now φ.peer ∧
      φ.records = π.blocks ∧ π.Ends (φ.result r) := by
  let φ₀ : Floor σ Q A ε R :=
    { now, peer := s, records := τs.map (·.records), asleep := [], waiting := queue 0 τs }
  have shows₀ : Shows [] φ₀ (.start τs) := ⟨rfl, rfl, .nil, nofun, rfl⟩
  exact loop_reaches limit shows₀ (left_le_turns 0 1 τs) h

end Clock

end PoolSnapshot
