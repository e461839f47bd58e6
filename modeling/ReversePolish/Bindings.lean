/-! # Variable bindings
Values given to names. A later binding of a name hides an earlier one. -/
namespace ReversePolish

/-- The pairs stand in the order of the bindings, the latest first. -/
structure Bindings where
  entries : List (String × Float) := []
  deriving DecidableEq

namespace Bindings

def find? (b : Bindings) (name : String) : Option Float := b.entries.lookup name

def binds (b : Bindings) (name : String) : Bool := (b.find? name).isSome

def bind (b : Bindings) (name : String) (value : Float) : Bindings := ⟨(name, value) :: b.entries⟩

/-- All the pairs, bound in their order. -/
def ofList (pairs : List (String × Float)) : Bindings :=
  pairs.foldl (fun b p => b.bind p.1 p.2) {}

@[simp] theorem find?_empty (name : String) : find? {} name = none := rfl

theorem find?_bind (b : Bindings) (name x : String) (value : Float) :
    (b.bind name value).find? x = if x = name then some value else b.find? x := by
  simp only [find?, bind, List.lookup_cons]
  by_cases h : x = name
  · simp [h]
  · simp [h, beq_eq_false_iff_ne.mpr h]

theorem ofList_concat (pairs : List (String × Float)) (name : String) (value : Float) :
    ofList (pairs ++ [(name, value)]) = (ofList pairs).bind name value := by
  simp [ofList]

/-- Every name has the same value in both, or none in both. -/
def Agrees (b b' : Bindings) : Prop := ∀ name, b.find? name = b'.find? name

variable {b b' : Bindings}

theorem Agrees.refl (b : Bindings) : b.Agrees b := fun _ => rfl

theorem Agrees.binds_eq (h : b.Agrees b') (name : String) : b.binds name = b'.binds name :=
  congrArg Option.isSome (h name)

theorem Agrees.bind (h : b.Agrees b') (name : String) (value : Float) :
    (b.bind name value).Agrees (b'.bind name value) := by
  intro x
  rw [find?_bind, find?_bind, h x]

end Bindings
end ReversePolish
