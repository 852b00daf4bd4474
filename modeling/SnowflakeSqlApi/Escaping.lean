import SnowflakeSqlApi.Lib.Fallible
import SnowflakeSqlApi.Lib.SqlLexer
import SnowflakeSqlApi.Exceptions

/-!
# Identifier quoting

`escaping.py`: `quoteIdentifier` wraps a name in double quotes and doubles the quotes
inside, `quoteName` quotes a dotted name part by part.  As tokens of SQL a quoted
identifier is one identifier, and a quoted name its parts joined by dots.
-/

namespace SnowflakeSqlApi

open SqlLexer

def quoteIdentifier (name : PyStr) : Except Exc PyStr :=
  if name = [] then .error (.config [lit "identifier must not be empty"])
  else if ch '\x00' ∈ name then
    .error (.config [lit "identifier must not contain a NUL character"])
  else .ok (ch '"' :: doubleQuotes name ++ [ch '"'])

/-- `name.split(".")`. -/
def dotParts (name : PyStr) : List PyStr := name.splitOn (ch '.')

def quoteName (name : PyStr) : Except Exc PyStr := do
  let parts ← (dotParts name).mapM quoteIdentifier
  pure (join (py ".") parts)

theorem quoteIdentifier_eq_ok {name quoted : PyStr} (h : quoteIdentifier name = .ok quoted) :
    quoted = ch '"' :: doubleQuotes name ++ [ch '"'] := by
  rw [quoteIdentifier] at h
  split at h
  · cases h
  · split at h
    · cases h
    · exact (Except.ok.inj h).symm

theorem lex_quoteIdentifier {name quoted : PyStr} (h : quoteIdentifier name = .ok quoted) :
    lex quoted = some [.ident name] := by
  rw [quoteIdentifier_eq_ok h]
  exact lex_quoted name

/-- Quoted names, separated: the identifiers themselves, separated. -/
theorem lex_join_quoted {sep : PyStr} {c : PyChar} {ts : List Token} (hc : Delimits c)
    (hsep : Ends (c :: sep) ts) {names quoted : List PyStr} (hne : names ≠ [])
    (h : names.mapM quoteIdentifier = .ok quoted) :
    lex (join (c :: sep) quoted) = some (ts.intercalate (names.map fun n => [.ident n])) := by
  have hall := mapM_eq_ok.mp h
  refine lex_join hc hsep ?_ ?_
  · rintro rfl
    cases hall
    exact hne rfl
  · rw [List.forall₂_map_right_iff]
    exact List.Forall₂.flip (hall.imp fun _ _ hq => lex_quoteIdentifier hq)

theorem dotParts_ne_nil (name : PyStr) : dotParts name ≠ [] := List.splitOn_ne_nil _ _

/-- The tokens of a dotted name. -/
def nameTokens (name : PyStr) : List Token :=
  [.punct (ch '.')].intercalate ((dotParts name).map fun part => [.ident part])

theorem quoteName_eq_ok {name quoted : PyStr} (h : quoteName name = .ok quoted) :
    ∃ parts, (dotParts name).mapM quoteIdentifier = .ok parts ∧ quoted = join (py ".") parts := by
  rw [quoteName] at h
  cases hp : (dotParts name).mapM quoteIdentifier with
  | error e => rw [hp] at h; cases h
  | ok parts =>
    rw [hp] at h
    exact ⟨parts, rfl, (Except.ok.inj h).symm⟩

theorem lex_quoteName {name quoted : PyStr} (h : quoteName name = .ok quoted) :
    lex quoted = some (nameTokens name) := by
  obtain ⟨parts, hparts, rfl⟩ := quoteName_eq_ok h
  have hdot : Ends (ch '.' :: []) [.punct (ch '.')] := by unfold Ends; decide
  exact lex_join_quoted (by decide) hdot (dotParts_ne_nil name) hparts

end SnowflakeSqlApi
