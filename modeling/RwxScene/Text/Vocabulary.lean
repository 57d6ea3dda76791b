/-!
# Vocabularies

A choice among finitely many things is written as one word. `Vocabulary` lists the things with their
words; that no two share a word is part of it, so a word can be read back.
-/

namespace RwxScene

/-- A finite choice, each member of which has a word of its own. -/
class Vocabulary (α : Type) where
  members : List α
  word : α → String
  /-- The word of a member finds that member. -/
  find?_word : ∀ a, members.find? (word · == word a) = some a

namespace Vocabulary

variable {α : Type} [Vocabulary α]

/-- The member with this word. -/
def ofWord? (w : String) : Option α := members.find? (word · == w)

@[simp] theorem ofWord?_word (a : α) : ofWord? (word a) = some a := find?_word a

theorem word_of_ofWord? {w : String} {a : α} (h : ofWord? w = some a) : word a = w := by
  simpa using List.find?_some h

theorem ofWord?_eq_some_iff {w : String} {a : α} : ofWord? w = some a ↔ w = word a :=
  ⟨fun h ↦ (word_of_ofWord? h).symm, fun h ↦ h ▸ ofWord?_word a⟩

end Vocabulary

end RwxScene
