import Linewise.Proofs.Origin.Shape
import Linewise.Proofs.Progress.Statement

/-!
# Leaves are faithful to the text

A leaf keeps the text of its span, but for the quotes of a text and the dashes of a comment.
As it is made of a token of its kind, the value of a name tells which names it may be.
-/

namespace Linewise

namespace LeafKind

def written (kind : LeafKind) (value : List Char) : List Char :=
  match kind with
  | .text => '"' :: (value ++ ['"'])
  | .comment => '-' :: '-' :: value
  | _ => value

def Allows (kind : LeafKind) (value : String) : Prop :=
  match kind with
  | .typeName => Lexical.Capitalized value.toList
  | .variantName => Lexical.Capitalized value.toList
  | .number => True
  | .text => '"' ∉ value.toList
  | .comment => '\n' ∉ value.toList
  | _ => value ≠ "_" ∧ (forall word : ReservedWord, value ≠ word.spelling) ∧
      forall front, front <+: value.toList -> ¬ Lexical.Capitalized front

/-- The text of the span is the leaf as it is written, and its value may be that of such a
leaf. -/
structure Faithful (source : String) (kind : LeafKind) (lexeme : Lexeme) : Prop where
  text : Text.slice? lexeme.span.start lexeme.span.stop source.toList =
    some (kind.written lexeme.value.toList)
  value : kind.Allows lexeme.value

end LeafKind

theorem Kind.ofReserved?_none {word : String} (h : ofReserved? word = none) :
    word ≠ "_" ∧ forall reserved : ReservedWord, word ≠ reserved.spelling := by
  unfold ofReserved? at h
  split at h
  · cases h
  · rename_i hline
    refine ⟨hline, fun reserved hword => ?_⟩
    split at h
    · cases h
    · rename_i hnone
      have hmem : reserved ∈ ReservedWord.all := by cases reserved <;> decide
      have hdiffers := List.find?_eq_none.mp hnone reserved hmem
      simp [hword] at hdiffers

namespace LeafKind.MadeOf

variable {kind : LeafKind} {lexeme : Lexeme} {token : Token}

theorem span (h : kind.MadeOf lexeme token) : lexeme.span = token.span := by
  have hkept := h.kept
  cases kind with
  | text =>
      rcases Option.map_eq_some_iff.mp hkept with ⟨value, _, rfl⟩
      rfl
  | _ =>
      cases hkept
      rfl

theorem allows (h : kind.MadeOf lexeme token)
    (hshape : Lexical.Shape token.kind token.value.toList) :
    token.value.toList = kind.written lexeme.value.toList ∧ kind.Allows lexeme.value := by
  have hkept := h.kept
  rw [h.sort] at hshape
  cases kind with
  | text =>
      rcases hshape with ⟨body, hbody, hquote⟩
      have hvalue : token.value = Symbol.quoted (String.ofList body) := by
        apply String.toList_inj.mp
        simp [hbody, Symbol.quoted]
      simp only [lexeme?, hvalue, Account.unquoted?_quoted, Option.map_some,
        Option.some.injEq] at hkept
      subst hkept
      simpa [written, Allows] using ⟨hbody, hquote⟩
  | comment =>
      rcases hshape with ⟨body, hbody, hline⟩
      simp only [lexeme?, Cursor.commentLexeme, hbody, Option.some.injEq] at hkept
      subst hkept
      simpa [written, Allows] using ⟨hbody, hline⟩
  | typeName => cases hkept; exact ⟨rfl, hshape⟩
  | variantName => cases hkept; exact ⟨rfl, hshape⟩
  | number => cases hkept; exact ⟨rfl, trivial⟩
  | _ =>
      cases hkept
      rcases hshape with ⟨hreserved, hcapital⟩
      rw [String.ofList_toList] at hreserved
      rcases Kind.ofReserved?_none hreserved with ⟨hline, hword⟩
      exact ⟨rfl, hline, hword, hcapital⟩

end LeafKind.MadeOf

def Tracing.ofLeaves (text : List Token) : Tracing where
  text := text
  Leaf := fun kind lexeme => exists token, token ∈ text ∧ kind.MadeOf lexeme token
  Block := fun _ _ => True
  leaf := fun ht hmade => ⟨_, ht, hmade⟩

theorem Tracing.admits_ofLeaves (text : List Token) (level : Level) :
    (Tracing.ofLeaves text).Admits level :=
  fun _ _ _ _ _ => ⟨fun _ => trivial, fun _ _ => trivial⟩

/-- The leaves in the tree of a source text are faithful to it. -/
theorem parse_leaves (source : String) (hshort : Text.byteLength source.toList < 4294967296) :
    exists parsed, parse source = .ok parsed ∧
      forall kind lexeme, (Node.leaf kind lexeme ∈ parsed.file.node.subtrees ∨
          Node.bare kind lexeme ∈ parsed.file.node.subtrees) ->
        kind.Faithful source lexeme := by
  rcases tokenize_lossless source (Nat.le_of_lt_succ hshort) with
    ⟨body, last, htokens, hcover, _, hlast, _⟩
  have hadmits := Tracing.admits_ofLeaves (Cursor.ofTokens (tokenize source).1).ahead
  rcases Grammar.exists_traced rfl (fun room => hadmits (Level.ofRoom room)) with
    ⟨parsed, _, hparsed, _, htraced⟩
  refine ⟨parsed, hparsed, fun kind lexeme hleaf => ?_⟩
  have hsees : (Tracing.ofLeaves (Cursor.ofTokens (tokenize source).1).ahead).Leaf kind lexeme :=
    hleaf.elim (fun hmem => htraced _ hmem) (fun hmem => htraced _ hmem)
  rcases hsees with ⟨token, htoken, hmade⟩
  rcases hmade.allows (tokenize_shape (Cursor.mem_of_mem_ahead htoken)) with
    ⟨hwritten, hallows⟩
  refine ⟨?_, hallows⟩
  rw [htokens, Cursor.ahead_ofTokens hlast] at htoken
  rw [hmade.span, ← hwritten]
  exact hcover.texts token htoken

/-- A comment, and a capital name with a digit in front, in a text with an accent. -/
theorem parse_leaves_accent :
    exists parsed, parse "--é\nn :: 2-D" = .ok parsed ∧
      Node.leaf .comment ⟨"é", ⟨0, 4⟩⟩ ∈ parsed.file.node.subtrees ∧
      LeafKind.Faithful "--é\nn :: 2-D" .comment ⟨"é", ⟨0, 4⟩⟩ ∧
      Node.bare .typeName ⟨"2-D", ⟨10, 13⟩⟩ ∈ parsed.file.node.subtrees ∧
      LeafKind.Faithful "--é\nn :: 2-D" .typeName ⟨"2-D", ⟨10, 13⟩⟩ := by
  have hlength : Text.byteLength "--é\nn :: 2-D".toList = 13 := by decide +kernel
  rcases parse_leaves "--é\nn :: 2-D" (by rw [hlength]; decide) with
    ⟨parsed, hparsed, hleaves⟩
  have hmem : (parse "--é\nn :: 2-D").toOption.map (fun parsed =>
      decide (Node.leaf .comment ⟨"é", ⟨0, 4⟩⟩ ∈ parsed.file.node.subtrees ∧
        Node.bare .typeName ⟨"2-D", ⟨10, 13⟩⟩ ∈ parsed.file.node.subtrees)) = some true := by
    decide +kernel
  rw [hparsed] at hmem
  rcases of_decide_eq_true (Option.some.inj hmem) with ⟨hcomment, htype⟩
  exact ⟨parsed, hparsed, hcomment, hleaves _ _ (Or.inl hcomment), htype,
    hleaves _ _ (Or.inr htype)⟩

end Linewise
