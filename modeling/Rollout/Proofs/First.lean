/-! The start of a list, up to the first element that passes a test. -/

namespace Rollout

variable {α : Type} (p : α → Bool)

/-- The elements up to the first that passes; all of them if none does. -/
def upTo (l : List α) : List α := l.take (l.findIdx p + 1)

variable {p}

@[simp] theorem upTo_nil : upTo p [] = [] := rfl

theorem upTo_cons (a : α) (l : List α) : upTo p (a :: l) = a :: if p a then [] else upTo p l := by
  cases h : p a <;> simp [upTo, List.findIdx_cons, h]

theorem upTo_append (l more : List α) :
    upTo p (l ++ more) = upTo p l ++ if l.any p then [] else upTo p more := by
  induction l with
  | nil => rfl
  | cons a l ih =>
    rw [List.cons_append, upTo_cons, upTo_cons, ih, List.any_cons]
    cases p a <;> rfl

theorem filter_upTo (l : List α) : (upTo p l).filter p = (l.find? p).toList := by
  induction l with
  | nil => rfl
  | cons a l ih =>
    rw [upTo_cons, List.find?_cons]
    cases h : p a <;> simp [h, ih]

theorem any_upTo (l : List α) : (upTo p l).any p = l.any p := by
  induction l with
  | nil => rfl
  | cons a l ih =>
    rw [upTo_cons, List.any_cons, List.any_cons]
    cases h : p a <;> simp [ih]

end Rollout
