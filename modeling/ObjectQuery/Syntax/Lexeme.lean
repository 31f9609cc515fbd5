import ObjectQuery.Syntax.Fault

namespace ObjectQuery

/-! What the shortest pieces of a text read as. -/

/--
The outcome of looking for a piece of text at the head of a list of characters.
All offsets count characters from that head.
-/
inductive Lexeme (α : Type) where
  /-- Nothing of the kind begins here. -/
  | absent
  /-- The piece takes up `length` characters. -/
  | found (value : α) (length : Nat)
  /-- A piece begun at `start` is spoilt at `stop`. -/
  | spoilt (fault : SyntaxFault) (start stop : Nat)
  deriving Repr

namespace Lexeme

def map (f : α → β) : Lexeme α → Lexeme β
  | absent => absent
  | found value length => found (f value) length
  | spoilt fault start stop => spoilt fault start stop

/-- The same piece, looked for `count` characters later. -/
def shift (count : Nat) : Lexeme α → Lexeme α
  | absent => absent
  | found value length => found value (count + length)
  | spoilt fault start stop => spoilt fault (count + start) (count + stop)

def orElse (first : Lexeme α) (second : Unit → Lexeme α) : Lexeme α :=
  match first with
  | absent => second ()
  | _ => first

instance : OrElse (Lexeme α) where
  orElse := Lexeme.orElse

@[simp]
theorem absent_orElse (second : Lexeme α) : (absent <|> second) = second := rfl

@[simp]
theorem found_orElse (value : α) (length : Nat) (second : Lexeme α) :
    (found value length <|> second) = found value length := rfl

theorem orElse_eq_found {first second : Lexeme α} {value : α} {length : Nat}
    (found : (first <|> second) = .found value length) :
    first = .found value length ∨ second = .found value length := by
  cases first with
  | absent => exact .inr found
  | found other count => exact .inl found
  | spoilt fault start stop => cases found

theorem orElse_eq_absent {first second : Lexeme α} (absent : (first <|> second) = .absent) :
    first = .absent ∧ second = .absent := by
  cases first with
  | absent => exact ⟨rfl, absent⟩
  | found other count => cases absent
  | spoilt fault start stop => cases absent

theorem exists_of_map_eq_found {f : α → β} {lexeme : Lexeme α} {result : β} {length : Nat}
    (found : lexeme.map f = .found result length) :
    ∃ value, lexeme = .found value length ∧ f value = result := by
  cases lexeme with
  | absent => cases found
  | found value count =>
      cases found
      exact ⟨value, rfl, rfl⟩
  | spoilt fault start stop => cases found

theorem eq_absent_of_map {f : α → β} {lexeme : Lexeme α} (absent : lexeme.map f = .absent) :
    lexeme = .absent := by
  cases lexeme with
  | absent => rfl
  | found value count => cases absent
  | spoilt fault start stop => cases absent

end Lexeme

end ObjectQuery
