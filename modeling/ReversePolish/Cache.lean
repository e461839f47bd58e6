/-! # Bounded caches
A cache keeps the values of the keys that were used last, at most `capacity` of them. A cache of
capacity zero keeps nothing. -/
namespace ReversePolish

/-- The entries stand in the order of their last use, the latest first. -/
structure Cache (α : Type) where
  capacity : Nat
  entries : List (String × α) := []
  length_le : entries.length ≤ capacity := by simp

namespace Cache

variable {α : Type}

def find? (c : Cache α) (key : String) : Option α := c.entries.lookup key

/-- Puts a key in front of all others; the key used longest ago gives way if there is no room. -/
def insert (c : Cache α) (key : String) (value : α) : Cache α where
  capacity := c.capacity
  entries := ((key, value) :: c.entries.filter (·.1 ≠ key)).take c.capacity
  length_le := List.length_take_le ..

def clear (c : Cache α) : Cache α where
  capacity := c.capacity

def size (c : Cache α) : Nat := c.entries.length

/-- The keys from the one used last to the one used longest ago. -/
def keys (c : Cache α) : List String := c.entries.map Prod.fst

theorem find?_clear (c : Cache α) (key : String) : c.clear.find? key = none := rfl

theorem find?_insert_self (c : Cache α) (key : String) (value : α) (h : 0 < c.capacity) :
    (c.insert key value).find? key = some value := by
  obtain ⟨n, hn⟩ := Nat.exists_eq_succ_of_ne_zero (Nat.ne_of_gt h)
  simp [find?, insert, hn]

theorem keys_insert (c : Cache α) (key : String) (value : α) :
    (c.insert key value).keys = (key :: c.keys.filter (· ≠ key)).take c.capacity := by
  simp only [keys, insert, List.map_take, List.map_cons, List.filter_map]
  rfl

end Cache
end ReversePolish
