import TextScopes.Token

/-!
# What tokens put into a store

A token that names a byte stands for a scope on its level (`Token.entry`); one that names none
stands for nothing. Two tokens fit when they do not ask for the same bytes on the same level, and
one encloses another when it lies around it on the level right below.
-/

namespace TextScopes

namespace Token

/-- The token names at least one byte. -/
def Shown (token : Token) : Prop := token.span.start < token.span.stop

instance : DecidablePred Shown :=
  fun token => inferInstanceAs (Decidable (token.span.start < token.span.stop))

/-- The tokens share no byte. -/
def Apart (a b : Token) : Prop := a.span.stop ≤ b.span.start ∨ b.span.stop ≤ a.span.start

/-- The outer token lies around the inner one, on the level right below. -/
def Encloses (outer inner : Token) : Prop :=
  outer.level + 1 = inner.level ∧ outer.span.contains inner.span = true

/-- Two tokens on one level that show something are apart. -/
def Fits (a b : Token) : Prop := a.level = b.level → a.Shown → b.Shown → a.Apart b

/-- The scope of a token with its level. -/
def entry (token : Token) : Nat × Scope := (token.level, token.scope)

/-- What tokens put into a store: the scopes of those that show something, with their levels. -/
def entries (tokens : List Token) : List (Nat × Scope) := (tokens.filter (·.Shown)).map entry

/-- A token encloses what shows something only if it shows something itself. -/
theorem Encloses.shown {outer inner : Token} (h : outer.Encloses inner) (hs : inner.Shown) :
    outer.Shown := by
  have hc := (Span.contains_iff _ _).1 h.2
  unfold Shown at hs ⊢
  omega

/-- The token for what has a name has its span. -/
theorem span_of_mem_ofName {name : Option String} {span : Span} {level : Nat} {token : Token}
    (h : token ∈ ofName name span level) : token.span = span := by
  cases name with
  | none => cases h
  | some name =>
    obtain rfl := List.mem_singleton.1 h
    rfl

/-- Tokens put in what each of them puts in. -/
theorem entries_append (tokens more : List Token) :
    entries (tokens ++ more) = entries tokens ++ entries more := by
  rw [entries, List.filter_append, List.map_append, entries, entries]

/-- A token that shows nothing puts nothing into a store. -/
theorem entries_cons_of_not {token : Token} (tokens : List Token) (h : ¬ token.Shown) :
    entries (token :: tokens) = entries tokens := by
  rw [entries, List.filter_cons_of_neg (by simpa using h), entries]

/-- A token that shows something puts its scope into a store. -/
theorem entries_cons {token : Token} (tokens : List Token) (h : token.Shown) :
    entries (token :: tokens) = token.entry :: entries tokens := by
  rw [entries, List.filter_cons_of_pos (by simpa using h), List.map_cons, entries]

/-- An entry of tokens is that of one that shows something. -/
theorem mem_entries {tokens : List Token} {x : Nat × Scope} :
    x ∈ entries tokens ↔ ∃ token ∈ tokens, token.Shown ∧ token.entry = x := by
  simp only [entries, List.mem_map, List.mem_filter, decide_eq_true_eq, and_assoc]

end Token

end TextScopes
