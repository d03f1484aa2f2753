import Linewise.Proofs.Display.Quoting
import Linewise.Tree.Outline

/-!
# Unique readability of outlines

A word ends at the next space or parenthesis, unless it is quoted, and a form begins with
a parenthesis.  So an outline whose words keep to this can be told from what is written of
it, whatever follows.
-/

namespace Linewise

/-!
## Words
-/

namespace Text

def isDelimiter (c : Char) : Bool :=
  c == ' ' || c == '(' || c == ')' || c == '"' || c == '\n'

structure IsPlain (text : String) : Prop where
  inner : forall c, c ∈ text.toList -> isDelimiter c = false
  nonempty : text.toList ≠ []

def isPlain (text : String) : Bool :=
  text.toList.all (fun c => !isDelimiter c) && !text.toList.isEmpty

theorem isPlain_iff {text : String} : isPlain text = true <-> IsPlain text := by
  simp only [isPlain, Bool.and_eq_true, List.all_eq_true, Bool.not_eq_true',
    List.isEmpty_eq_false_iff]
  exact ⟨fun h => ⟨h.1, h.2⟩, fun h => ⟨h.inner, h.nonempty⟩⟩

instance (text : String) : Decidable (IsPlain text) := decidable_of_iff _ isPlain_iff

def IsWord (text : String) : Prop := IsPlain text ∨ exists value, text = quoted value

def EndsWord (rest : List Char) : Prop := forall c, rest.head? = some c -> isDelimiter c = true

theorem takeWhile_plain {text : String} {rest : List Char} (h : IsPlain text)
    (hrest : EndsWord rest) :
    (text.toList ++ rest).takeWhile (fun c => !isDelimiter c) = text.toList := by
  rw [List.takeWhile_append_of_pos (by simpa using h.inner)]
  cases rest with
  | nil => simp
  | cons c rest => simp [hrest c rfl]

theorem IsPlain.cancel {a b : String} {rest rest' : List Char} (ha : IsPlain a) (hb : IsPlain b)
    (hrest : EndsWord rest) (hrest' : EndsWord rest')
    (h : a.toList ++ rest = b.toList ++ rest') : a = b ∧ rest = rest' := by
  have htaken := congrArg (List.takeWhile (fun c => !isDelimiter c)) h
  rw [takeWhile_plain ha hrest, takeWhile_plain hb hrest'] at htaken
  rw [htaken] at h
  exact ⟨String.toList_inj.mp htaken, List.append_cancel_left h⟩

theorem IsPlain.head {text : String} {rest more : List Char} {c : Char} (h : IsPlain text)
    (heq : text.toList ++ rest = c :: more) : isDelimiter c = false := by
  cases htext : text.toList with
  | nil => exact absurd htext h.nonempty
  | cons d ds =>
      rw [htext] at heq
      cases heq
      exact h.inner c (by simp [htext])

theorem toList_quoted (value : String) :
    (quoted value).toList = '"' :: (quotedChars value.toList ++ ['"']) := by simp [quoted]

theorem IsWord.cancel {a b : String} {rest rest' : List Char} (ha : IsWord a) (hb : IsWord b)
    (hrest : EndsWord rest) (hrest' : EndsWord rest')
    (h : a.toList ++ rest = b.toList ++ rest') : a = b ∧ rest = rest' := by
  rcases ha with ha | ⟨value, rfl⟩
  · rcases hb with hb | ⟨value', rfl⟩
    · exact ha.cancel hb hrest hrest' h
    · have hquote := ha.head (h.trans (by rw [toList_quoted, List.cons_append]))
      cases hquote
  · rcases hb with hb | ⟨value', rfl⟩
    · have hquote := hb.head (h.symm.trans (by rw [toList_quoted, List.cons_append]))
      cases hquote
    · rcases quoted_cancel h with ⟨rfl, hsame⟩
      exact ⟨rfl, hsame⟩

theorem IsWord.head_ne {text : String} {rest more : List Char} (h : IsWord text) :
    text.toList ++ rest ≠ '(' :: more := by
  intro heq
  rcases h with h | ⟨value, rfl⟩
  · have hparen := h.head heq
    cases hparen
  · rw [toList_quoted] at heq
    injection heq with hquote _
    cases hquote

end Text

/-!
## Outlines
-/

namespace Outline

mutual

def IsClean : Outline -> Prop
  | .word text => Text.IsWord text
  | .form tag items => Text.IsPlain tag ∧ AreClean items

def AreClean : List Outline -> Prop
  | [] => True
  | item :: rest => IsClean item ∧ AreClean rest

end

theorem endsWord_items (items : List Outline) (rest : List Char) :
    Text.EndsWord ((renderItems items).toList ++ ')' :: rest) := by
  intro c hc
  cases items with
  | nil =>
      cases hc
      rfl
  | cons item items =>
      simp only [renderItems, String.toList_append, List.append_assoc] at hc
      cases hc
      rfl

theorem render_form (tag : String) (items : List Outline) (rest : List Char) :
    (render (.form tag items)).toList ++ rest =
      '(' :: (tag.toList ++ ((renderItems items).toList ++ ')' :: rest)) := by
  simp [render]

theorem renderItems_cons (item : Outline) (items : List Outline) (rest : List Char) :
    (renderItems (item :: items)).toList ++ ')' :: rest =
      ' ' :: (item.render.toList ++ ((renderItems items).toList ++ ')' :: rest)) := by
  simp [renderItems]

mutual

/-- Of two clean outlines, only one can begin a row of characters. -/
theorem render_cancel {a b : Outline} {rest rest' : List Char} (ha : a.IsClean) (hb : b.IsClean)
    (hrest : Text.EndsWord rest) (hrest' : Text.EndsWord rest')
    (h : a.render.toList ++ rest = b.render.toList ++ rest') : a = b ∧ rest = rest' := by
  cases a with
  | word text =>
      cases b with
      | word text' =>
          rcases Text.IsWord.cancel ha hb hrest hrest' h with ⟨rfl, hsame⟩
          exact ⟨rfl, hsame⟩
      | form tag' items' =>
          rw [render_form] at h
          exact absurd h (Text.IsWord.head_ne ha)
  | form tag items =>
      cases b with
      | word text' =>
          rw [render_form] at h
          exact absurd h.symm (Text.IsWord.head_ne hb)
      | form tag' items' =>
          rw [render_form, render_form] at h
          injection h with _ h
          rcases Text.IsPlain.cancel ha.1 hb.1 (endsWord_items items rest)
            (endsWord_items items' rest') h with ⟨rfl, hitems⟩
          rcases renderItems_cancel ha.2 hb.2 hitems with ⟨rfl, hsame⟩
          exact ⟨rfl, hsame⟩

theorem renderItems_cancel {as bs : List Outline} {rest rest' : List Char} (ha : AreClean as)
    (hb : AreClean bs)
    (h : (renderItems as).toList ++ ')' :: rest = (renderItems bs).toList ++ ')' :: rest') :
    as = bs ∧ rest = rest' := by
  cases as with
  | nil =>
      cases bs with
      | nil =>
          injection h with _ hsame
          exact ⟨rfl, hsame⟩
      | cons b bs =>
          rw [renderItems_cons] at h
          injection h with hparen _
          cases hparen
  | cons a as =>
      cases bs with
      | nil =>
          rw [renderItems_cons] at h
          injection h with hparen _
          cases hparen
      | cons b bs =>
          rw [renderItems_cons, renderItems_cons] at h
          injection h with _ h
          rcases render_cancel ha.1 hb.1 (endsWord_items as rest) (endsWord_items bs rest') h with
            ⟨rfl, hitems⟩
          rcases renderItems_cancel ha.2 hb.2 hitems with ⟨rfl, hsame⟩
          exact ⟨rfl, hsame⟩

end

end Outline

end Linewise
