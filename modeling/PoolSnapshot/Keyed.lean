/-!
Values by key. Each key stands once, in the order of first use.
-/
namespace PoolSnapshot.Keyed

variable {α : Type}

def put (k : String) (v : α) : List (String × α) → List (String × α)
  | [] => [(k, v)]
  | (k', v') :: es => if k' = k then (k, v) :: es else (k', v') :: put k v es

theorem lookup_cons (k k' : String) (v : α) (es : List (String × α)) :
    ((k, v) :: es).lookup k' = if k' = k then some v else es.lookup k' := by
  by_cases h : k' = k
  · simp [h]
  · simp [List.lookup_cons, beq_false_of_ne h, h]

theorem lookup_put (k k' : String) (v : α) (es : List (String × α)) :
    (put k v es).lookup k' = if k' = k then some v else es.lookup k' := by
  induction es with
  | nil => simp [put, lookup_cons]
  | cons e es ih =>
    obtain ⟨l, w⟩ := e
    by_cases h : l = k
    · subst h
      simp only [put, lookup_cons, if_pos]
      split <;> rfl
    · simp only [put, if_neg h, lookup_cons, ih]
      by_cases h' : k' = l
      · subst h'
        simp [h]
      · simp [h']

end PoolSnapshot.Keyed
