/-!
# Reading from the front

A reader takes something off the front of a text and leaves the rest.  `Front` records both,
together with the fact that the rest is shorter, which is what makes reading one thing after another
end.
-/

namespace BoardIdentity.Toml

/-- What was read off the front of a list, and the rest behind it. -/
structure Front (β α : Type) (whole : List β) where
  value : α
  rest : List β
  rest_lt : rest.length < whole.length

namespace Front

variable {β α γ : Type} {part whole : List β}

def one (value : α) {first : β} {rest : List β} : Front β α (first :: rest) where
  value
  rest
  rest_lt := Nat.lt_succ_self _

def map (front : Front β α whole) (f : α → γ) : Front β γ whole :=
  { front with value := f front.value }

/-- What was read off a part that is no longer than the whole was read off the whole. -/
def within (front : Front β α part) (part_le : part.length ≤ whole.length) : Front β α whole :=
  { front with rest_lt := Nat.lt_of_lt_of_le front.rest_lt part_le }

/-- What was read off a list was read off the list with one more element in front. -/
def behind {first : β} (front : Front β α part) : Front β α (first :: part) :=
  front.within (Nat.le_succ _)

/-- Leaves out more of the rest. -/
def leaving (front : Front β α whole) (rest : List β) (rest_le : rest.length ≤ front.rest.length) :
    Front β α whole :=
  { front with rest, rest_lt := Nat.lt_of_le_of_lt rest_le front.rest_lt }

/-- Takes a given element off the rest. -/
def expect? [DecidableEq β] (front : Front β α whole) (expected : β) :
    Option (Front β α whole) :=
  match rest_eq : front.rest with
  | [] => none
  | first :: rest =>
    if first = expected then
      some (front.leaving rest (by rw [rest_eq]; exact Nat.le_succ _))
    else
      none

end Front

theorem length_dropWhile_le {β : Type} (p : β → Bool) (whole : List β) :
    (whole.dropWhile p).length ≤ whole.length :=
  (List.dropWhile_sublist p).length_le

/-- What stands behind the first element that is not left out is shorter than the whole. -/
theorem length_lt_of_dropWhile_eq_cons {β : Type} {p : β → Bool} {whole rest : List β} {first : β}
    (found : whole.dropWhile p = first :: rest) : rest.length < whole.length := by
  have shorter := length_dropWhile_le p whole
  rw [found] at shorter
  exact shorter

theorem length_drop_le {β : Type} (count : Nat) (whole : List β) :
    (whole.drop count).length ≤ whole.length :=
  (List.drop_sublist count whole).length_le

end BoardIdentity.Toml
