/-!
# Named things

Things kept under names, the latest first.
-/

namespace Courier

abbrev Named (α : Type) := List (String × α)

namespace Named

variable {α : Type}

def forget (name : String) (l : Named α) : Named α :=
  l.filter fun p => p.1 != name

def put (name : String) (x : α) (l : Named α) : Named α :=
  (name, x) :: l.forget name

theorem lookup_cons (key name : String) (x : α) (l : Named α) :
    List.lookup name ((key, x) :: l) = if name = key then some x else l.lookup name := by
  by_cases h : name = key
  · rw [h, List.lookup_cons_self, if_pos rfl]
  · have hne : (name == key) = false := beq_eq_false_iff_ne.mpr h
    simp [List.lookup_cons, hne, h]

theorem lookup_forget (key name : String) (l : Named α) :
    (l.forget key).lookup name = if name = key then none else l.lookup name := by
  induction l with
  | nil => exact (ite_self none).symm
  | cons entry rest ih =>
    rcases entry with ⟨k, x⟩
    simp only [forget, List.filter_cons, lookup_cons] at ih ⊢
    by_cases hk : k = key
    · subst hk
      simp only [bne_self_eq_false, Bool.false_eq_true, if_false, ih]
      by_cases hname : name = k <;> simp [hname]
    · simp only [bne_iff_ne.mpr hk, if_true, lookup_cons, ih]
      by_cases hname : name = k
      · simp [hname, hk]
      · simp [hname]

theorem lookup_put (name : String) (x : α) (l : Named α) :
    (l.put name x).lookup name = some x :=
  List.lookup_cons_self

end Named
end Courier
