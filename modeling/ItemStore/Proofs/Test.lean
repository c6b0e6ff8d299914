/-
The placeholders in the text of a condition.

A condition is written in many forms, but all of them put the placeholders of the path and
of the operands between texts that have no placeholder in them and that no placeholder runs
on into.  So whatever the form, the placeholders found in the text are those that were put
in, in the same order (`tokens_statement`), and the tables that come with it bind just
these.
-/
import ItemStore.Expression.Test
import ItemStore.Proofs.Except
import ItemStore.Proofs.Token

namespace ItemStore

namespace Test

open Placeholder PathPlaceholders

variable {sigil : Char}

theorem tokens_operator_text (h : sigil ∈ sigils) (f : Function) :
    Text.tokens sigil f.text = [] :=
  tokens_eq_nil_of_sigils h (by cases f <;> decide)

/-- **The placeholders in the text of a condition** are those of its target and its
operands, whatever its form. -/
theorem tokens_statement (h : sigil ∈ sigils) (t : Test) (target : String) (ps : List String) :
    Text.tokens sigil (t.statement target ps) =
      Text.tokens sigil target ++ ps.flatMap (Text.tokens sigil) := by
  have hcomma := separates_of_sigils h ", " (by decide)
  have hclose : ∀ s, Text.tokens sigil (s ++ ")") = Text.tokens sigil s := by
    intro s
    have := Text.tokens_append (separates_of_sigils h ")" (by decide)) s ""
    simpa [Text.tokens, Text.tokenChars] using this
  cases t with
  | compare c v =>
      have hop := separates_of_sigils h (" " ++ c.text ++ " ") (by cases c <;> decide)
      have htext : statement target ps (compare c v) =
          target ++ (" " ++ c.text ++ " ") ++ ", ".intercalate ps := by
        simp [statement, String.append_assoc]
      rw [htext, Text.tokens_append hop, Text.tokens_intercalate hcomma]
  | between low high =>
      rw [statement, Text.tokens_append (separates_of_sigils h _ (by decide)),
        Text.tokens_intercalate (separates_of_sigils h _ (by decide))]
  | oneOf v vs =>
      rw [statement, hclose, Text.tokens_append (separates_of_sigils h _ (by decide)),
        Text.tokens_intercalate hcomma]
  | call f v =>
      rw [statement, hclose, Text.tokens_append (separates_of_sigils h _ (by decide)),
        tokens_operator_text h, Text.tokens_intercalate hcomma, List.nil_append,
        List.flatMap_cons]

/-! ### Compiling -/

/-- The expression that asks a test of a path, as it is when the path has placeholders. -/
def fragment (t : Test) (path : String) (taken : List String) (names : Dict String) :
    Expression where
  statement := t.statement
    (".".intercalate ((assign (pathSegments path) names).map (·.1)))
    ((forValues path t.operands taken).map (·.1))
  names := .ofList (assign (pathSegments path) names)
  values := .ofList (forValues path t.operands taken)

/-- A test compiles on every path that has placeholders, and on no other. -/
theorem compile_eq (t : Test) (path : String) (taken : List String) (names : Dict String) :
    t.compile path taken names =
      if (pathSegments path).any fun s => (Text.clean s).isEmpty then
        .error (.argument (.wordlessPath path))
      else .ok (t.fragment path taken names) := by
  rw [compile, PathPlaceholders.ofPath]
  split <;> rfl

/-- The name placeholders in a compiled test are those of its path. -/
theorem tokens_hash_fragment (t : Test) (path : String) (taken : List String)
    (names : Dict String) : Text.tokens '#' (t.fragment path taken names).statement =
      (assign (pathSegments path) names).map (·.1) := by
  rw [fragment, tokens_statement (by decide),
    Text.tokens_intercalate (separates_of_sigils (by decide) _ (by decide)),
    Text.flatMap_tokens_of_shaped rfl (shaped_assign _ _),
    Text.flatMap_tokens_of_shaped_ne rfl (by decide) (shaped_forValues _ _ _), List.append_nil]

/-- The value placeholders in a compiled test are those of its operands. -/
theorem tokens_colon_fragment (t : Test) (path : String) (taken : List String)
    (names : Dict String) : Text.tokens ':' (t.fragment path taken names).statement =
      (forValues path t.operands taken).map (·.1) := by
  rw [fragment, tokens_statement (by decide),
    Text.tokens_intercalate (separates_of_sigils (by decide) _ (by decide)),
    Text.flatMap_tokens_of_shaped_ne rfl (by decide) (shaped_assign _ _),
    Text.flatMap_tokens_of_shaped rfl (shaped_forValues _ _ _), List.nil_append]

end Test

end ItemStore
