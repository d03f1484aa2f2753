import Linewise.Proofs.Display.Faithful
import Linewise.Tree.Layout
import Mathlib.Data.List.Forall2

/-!
# Lines of a laid-out outline

Laying out an outline whose words are plain or quoted puts a fresh line in front of every
form but the first and changes nothing else, for no quote, parenthesis or line feed of a word
is taken for one of the outline.  So there is one line for each form, and from the lines put
one behind the other, with one space in between, the outline is found again.
-/

namespace Linewise

/-!
## Texts in lines
-/

namespace Layout

/-- A text with one space for every line feed and the spaces behind it.  While `skipping`,
spaces are left out. -/
def joinFrom : Bool -> List Char -> List Char
  | _, [] => []
  | skipping, c :: rest =>
      if c = '\n' then
        ' ' :: joinFrom true rest
      else if skipping && c == ' ' then
        joinFrom true rest
      else
        c :: joinFrom false rest

def behindFeeds : List Char -> List (List Char)
  | [] => []
  | c :: rest => if c = '\n' then rest :: behindFeeds rest else behindFeeds rest

/-- The text from the start of each of its lines on. -/
def lineStarts (cs : List Char) : List (List Char) := cs :: behindFeeds cs

theorem joinFrom_append {cs : List Char} (h : '\n' ∉ cs) (rest : List Char) :
    joinFrom false (cs ++ rest) = cs ++ joinFrom false rest := by
  induction cs with
  | nil => rfl
  | cons c cs ih =>
      rw [List.mem_cons, not_or] at h
      rw [List.cons_append, joinFrom, if_neg (Ne.symm h.1), Bool.false_and,
        if_neg Bool.false_ne_true, ih h.2, List.cons_append]

theorem behindFeeds_append {cs : List Char} (h : '\n' ∉ cs) (rest : List Char) :
    behindFeeds (cs ++ rest) = behindFeeds rest := by
  induction cs with
  | nil => rfl
  | cons c cs ih =>
      rw [List.mem_cons, not_or] at h
      rw [List.cons_append, behindFeeds, if_neg (Ne.symm h.1), ih h.2]

theorem joinFrom_spaces (width : Nat) (rest : List Char) :
    joinFrom true (List.replicate width ' ' ++ '(' :: rest) = joinFrom false ('(' :: rest) := by
  induction width with
  | zero => rfl
  | succ width ih => exact ih

/-!
## Words of an outline
-/

def Passes (mode : Mode) (cs : List Char) (mode' : Mode) : Prop :=
  forall depth written rest,
    layoutFrom mode depth written (cs ++ rest) = layoutFrom mode' depth (cs.reverse ++ written) rest

namespace Passes

theorem append {mode mode' mode'' : Mode} {cs ds : List Char} (first : Passes mode cs mode')
    (second : Passes mode' ds mode'') : Passes mode (cs ++ ds) mode'' := by
  intro depth written rest
  rw [List.append_assoc, first, second, List.reverse_append, List.append_assoc]

theorem all {mode : Mode} {cs : List Char} (h : forall c, c ∈ cs -> Passes mode [c] mode) :
    Passes mode cs mode := by
  induction cs with
  | nil => exact fun _ _ _ => rfl
  | cons c cs ih =>
      rw [List.forall_mem_cons] at h
      exact h.1.append (ih h.2)

theorem undelimited {c : Char} (h : Text.isDelimiter c = false) : Passes .plain [c] .plain := by
  simp only [Text.isDelimiter, Bool.or_eq_false_iff, beq_eq_false_iff_ne] at h
  rcases h with ⟨⟨⟨⟨_, hopen⟩, hclose⟩, hquote⟩, _⟩
  intro depth written rest
  rw [List.singleton_append, layoutFrom, if_neg hquote, if_neg hopen, if_neg hclose,
    List.reverse_singleton, List.singleton_append]

theorem opening : Passes .plain ['"'] .inQuotes := fun _ _ _ => rfl

theorem closing : Passes .inQuotes ['"'] .plain := fun _ _ _ => rfl

theorem marked (c : Char) : Passes .inQuotes ['\\', c] .inQuotes := fun _ _ _ => rfl

theorem inner {c : Char} (hbackslash : c ≠ '\\') (hquote : c ≠ '"') :
    Passes .inQuotes [c] .inQuotes := by
  intro depth written rest
  rw [List.singleton_append, layoutFrom, if_neg hbackslash, if_neg hquote,
    List.reverse_singleton, List.singleton_append]

end Passes

end Layout

namespace Text

theorem mem_toDigits {n : Nat} {c : Char} (h : c ∈ Nat.toDigits 16 n) :
    exists digit, digit < 16 ∧ c = digit.digitChar := by
  induction n using Nat.strongRecOn with
  | ind n ih =>
      rw [Nat.toDigits_eq_if (by omega)] at h
      split at h
      · rename_i hlt
        exact ⟨n, hlt, List.mem_singleton.mp h⟩
      · rcases List.mem_append.mp h with hfront | hlast
        · exact ih (n / 16) (by omega) hfront
        · exact ⟨n % 16, Nat.mod_lt n (by omega), List.mem_singleton.mp hlast⟩

theorem digit_ne {n : Nat} {c : Char} (h : c ∈ Nat.toDigits 16 n) :
    c ≠ '\\' ∧ c ≠ '"' ∧ c ≠ '\n' := by
  rcases mem_toDigits h with ⟨digit, hlt, rfl⟩
  have hall : forall digit : Fin 16, digit.val.digitChar ≠ '\\' ∧ digit.val.digitChar ≠ '"' ∧
      digit.val.digitChar ≠ '\n' := by decide
  exact hall ⟨digit, hlt⟩

theorem passes_quotedChar (c : Char) :
    Layout.Passes .inQuotes (quotedChar c) .inQuotes ∧ '\n' ∉ quotedChar c := by
  unfold quotedChar
  split_ifs with htab hreturn hfeed hzero hbackslash hquote hhidden
  · exact ⟨.marked 't', by decide⟩
  · exact ⟨.marked 'r', by decide⟩
  · exact ⟨.marked 'n', by decide⟩
  · exact ⟨.marked '0', by decide⟩
  · exact ⟨.marked '\\', by decide⟩
  · exact ⟨.marked '"', by decide⟩
  · have hbraces : escapedCode c =
        ['\\', 'u'] ++ ('\x7b' :: (Nat.toDigits 16 c.toNat ++ ['\x7d'])) := rfl
    have hinner : forall d, d ∈ '\x7b' :: (Nat.toDigits 16 c.toNat ++ ['\x7d']) ->
        d ≠ '\\' ∧ d ≠ '"' ∧ d ≠ '\n' := by
      intro d hd
      rcases List.mem_cons.mp hd with rfl | hd
      · decide
      · rcases List.mem_append.mp hd with hd | hd
        · exact digit_ne hd
        · rw [List.mem_singleton.mp hd]
          decide
    rw [hbraces]
    constructor
    · apply (Layout.Passes.marked 'u').append
      exact .all (fun d hd => .inner (hinner d hd).1 (hinner d hd).2.1)
    · intro hmem
      rcases List.mem_append.mp hmem with hmem | hmem
      · revert hmem
        decide
      · exact (hinner '\n' hmem).2.2 rfl
  · exact ⟨.inner hbackslash hquote, by simpa using Ne.symm hfeed⟩

theorem passes_quotedChars (cs : List Char) :
    Layout.Passes .inQuotes (quotedChars cs) .inQuotes ∧ '\n' ∉ quotedChars cs := by
  induction cs with
  | nil => exact ⟨fun _ _ _ => rfl, by simp [quotedChars]⟩
  | cons c cs ih =>
      rcases passes_quotedChar c with ⟨hpass, hfeed⟩
      rw [quotedChars, List.mem_append, not_or]
      exact ⟨hpass.append ih.1, hfeed, ih.2⟩

theorem IsWord.passes {text : String} (h : IsWord text) :
    Layout.Passes .plain text.toList .plain ∧ '\n' ∉ text.toList := by
  rcases h with h | ⟨value, rfl⟩
  · constructor
    · exact .all (fun c hc => .undelimited (h.inner c hc))
    · intro hfeed
      exact absurd (h.inner '\n' hfeed) (by decide)
  · rcases passes_quotedChars value.toList with ⟨hpass, hfeed⟩
    rw [toList_quoted]
    constructor
    · exact Layout.Passes.opening.append (hpass.append .closing)
    · simpa using hfeed

end Text

namespace Outline

open Layout

/-!
## The layout of an outline
-/

def lead (depth : Nat) : Outline -> List Char
  | .word _ => [' ']
  | .form _ _ => '\n' :: List.replicate (2 * depth) ' '

mutual

def laid (depth : Nat) : Outline -> List Char
  | .word text => text.toList
  | .form tag items => '(' :: (tag.toList ++ (laidItems (depth + 1) items ++ [')']))

def laidItems (depth : Nat) : List Outline -> List Char
  | [] => []
  | item :: rest => lead depth item ++ (laid depth item ++ laidItems depth rest)

end

theorem layoutFrom_form {tag : String} {items : List Outline} {depth : Nat}
    (htag : Text.IsPlain tag)
    (hitems : forall written rest,
      layoutFrom .plain (depth + 1) written ((renderItems items).toList ++ rest) =
        layoutFrom .plain (depth + 1) ((laidItems (depth + 1) items).reverse ++ written) rest)
    (written rest : List Char) :
    layoutFrom .plain (depth + 1) ('(' :: written)
        (tag.toList ++ ((renderItems items).toList ++ ')' :: rest)) =
      layoutFrom .plain depth ((laid depth (.form tag items)).reverse ++ written) rest := by
  rw [(Text.IsWord.passes (.inl htag)).1, hitems]
  simp [layoutFrom, laid]

mutual

theorem layoutFrom_item {item : Outline} (h : item.IsClean) (depth : Nat)
    (written rest : List Char) :
    layoutFrom .plain depth written (' ' :: (item.render.toList ++ rest)) =
      layoutFrom .plain depth ((laid depth item).reverse ++ ((lead depth item).reverse ++ written))
        rest := by
  cases item with
  | word text => exact h.passes.1 depth (' ' :: written) rest
  | form tag items =>
      have hform := layoutFrom_form h.1 (layoutFrom_items h.2 (depth + 1))
      rw [render_form, ← hform]
      simp [layoutFrom, freshLine, dropBlank, lead]

theorem layoutFrom_items {items : List Outline} (h : AreClean items) (depth : Nat)
    (written rest : List Char) :
    layoutFrom .plain depth written ((renderItems items).toList ++ rest) =
      layoutFrom .plain depth ((laidItems depth items).reverse ++ written) rest := by
  cases items with
  | nil => rfl
  | cons item items =>
      have hitem := layoutFrom_item h.1 depth written ((renderItems items).toList ++ rest)
      rw [layoutFrom_items h.2] at hitem
      simpa [renderItems, laidItems] using hitem

end

theorem layout_form {tag : String} {items : List Outline} (h : IsClean (.form tag items)) :
    (layout (render (.form tag items))).toList = laid 0 (.form tag items) := by
  have hlaid := layoutFrom_form h.1 (layoutFrom_items h.2 (0 + 1)) [] []
  have htext := render_form tag items []
  rw [List.append_nil] at htext
  rw [layout, String.toList_ofList, htext]
  simpa [layoutFrom] using hlaid

/-!
## The way back
-/

theorem joinFrom_lead (item : Outline) (depth : Nat) (rest : List Char) :
    joinFrom false (lead depth item ++ (laid depth item ++ rest)) =
      ' ' :: joinFrom false (laid depth item ++ rest) := by
  cases item with
  | word text => rfl
  | form tag items => exact congrArg (List.cons ' ') (joinFrom_spaces (2 * depth) _)

mutual

theorem joinFrom_laid {item : Outline} (h : item.IsClean) (depth : Nat) (rest : List Char) :
    joinFrom false (laid depth item ++ rest) = item.render.toList ++ joinFrom false rest := by
  cases item with
  | word text => exact joinFrom_append h.passes.2 rest
  | form tag items =>
      have htag := joinFrom_append (Text.IsWord.passes (.inl h.1)).2
        (laidItems (depth + 1) items ++ (')' :: rest))
      rw [joinFrom_laidItems h.2] at htag
      rw [render_form]
      simpa [laid, joinFrom] using htag

theorem joinFrom_laidItems {items : List Outline} (h : AreClean items) (depth : Nat)
    (rest : List Char) :
    joinFrom false (laidItems depth items ++ rest) =
      (renderItems items).toList ++ joinFrom false rest := by
  cases items with
  | nil => rfl
  | cons item items =>
      rw [laidItems, List.append_assoc, List.append_assoc, joinFrom_lead, joinFrom_laid h.1,
        joinFrom_laidItems h.2]
      simp [renderItems]

end

/-!
## The lines of the forms
-/

mutual

/-- The forms of an outline in the order of their opening parentheses.  Each is given by its
depth and by what is written from its parenthesis on, if `behind` follows the outline. -/
def openings (depth : Nat) (behind : List Char) : Outline -> List (Nat × List Char)
  | .word _ => []
  | .form tag items =>
      (depth, (render (.form tag items)).toList ++ behind) ::
        openingsOf (depth + 1) (')' :: behind) items

def openingsOf (depth : Nat) (behind : List Char) : List Outline -> List (Nat × List Char)
  | [] => []
  | item :: rest =>
      openings depth ((renderItems rest).toList ++ behind) item ++ openingsOf depth behind rest

end

/-- A line begins with two spaces for every step of the depth of a form, and behind them with
the parenthesis of that form. -/
def StartsLine (line : List Char) (opening : Nat × List Char) : Prop :=
  exists body, line = List.replicate (2 * opening.1) ' ' ++ '(' :: body ∧
    joinFrom false ('(' :: body) = opening.2

theorem behindFeeds_form {tag : String} (items : List Outline) (htag : Text.IsPlain tag)
    (depth : Nat) (rest : List Char) :
    behindFeeds (laid depth (.form tag items) ++ rest) =
      behindFeeds (laidItems (depth + 1) items ++ ')' :: rest) := by
  have hopen := behindFeeds_append (Text.IsWord.passes (.inl htag)).2
    (laidItems (depth + 1) items ++ ')' :: rest)
  simpa [laid, behindFeeds] using hopen

theorem startsLine_form {tag : String} {items : List Outline} (h : IsClean (.form tag items))
    (depth : Nat) (rest : List Char) :
    StartsLine (List.replicate (2 * depth) ' ' ++ (laid depth (.form tag items) ++ rest))
      (depth, (render (.form tag items)).toList ++ joinFrom false rest) :=
  ⟨_, rfl, joinFrom_laid h depth rest⟩

mutual

theorem startsLine_item {item : Outline} (h : item.IsClean) (depth : Nat) {rest : List Char}
    {found : List (Nat × List Char)} (hrest : List.Forall₂ StartsLine (behindFeeds rest) found) :
    List.Forall₂ StartsLine (behindFeeds (lead depth item ++ (laid depth item ++ rest)))
      (openings depth (joinFrom false rest) item ++ found) := by
  cases item with
  | word text =>
      have hword := behindFeeds_append h.passes.2 rest
      simpa [lead, laid, behindFeeds, openings, hword] using hrest
  | form tag items =>
      have hspaces : '\n' ∉ List.replicate (2 * depth) ' ' := by simp
      have hbehind := behindFeeds_append hspaces (laid depth (.form tag items) ++ rest)
      have hclosed : List.Forall₂ StartsLine (behindFeeds (')' :: rest)) found := hrest
      have hinner := startsLine_items h.2 (depth + 1) hclosed
      rw [← behindFeeds_form items h.1, ← hbehind] at hinner
      exact .cons (startsLine_form h depth rest) hinner

theorem startsLine_items {items : List Outline} (h : AreClean items) (depth : Nat)
    {rest : List Char} {found : List (Nat × List Char)}
    (hrest : List.Forall₂ StartsLine (behindFeeds rest) found) :
    List.Forall₂ StartsLine (behindFeeds (laidItems depth items ++ rest))
      (openingsOf depth (joinFrom false rest) items ++ found) := by
  cases items with
  | nil => exact hrest
  | cons item items =>
      have hitem := startsLine_item h.1 depth (startsLine_items h.2 depth hrest)
      rw [joinFrom_laidItems h.2] at hitem
      simpa [laidItems, openingsOf] using hitem

end

end Outline

/-- The text that is shown of a source file, laid out, has one line for each form, in the
order in which the forms open.  The line begins with two spaces for every step of the depth of
its form and with the parenthesis of the form.  With one space for each line feed and the
spaces behind it, the text is as it was. -/
theorem parse_layout (source : String) :
    exists parsed, parse source = .ok parsed ∧
      parsed.file.render = parsed.file.outline.render ∧
      List.Forall₂ Outline.StartsLine (Layout.lineStarts (layout parsed.file.render).toList)
        (parsed.file.outline.openings 0 []) ∧
      Layout.joinFrom false (layout parsed.file.render).toList = parsed.file.render.toList := by
  rcases parse_arePlain source with ⟨parsed, hparsed, hplain⟩
  have hclean := (SourceFile.clean_node hplain).1
  refine ⟨parsed, hparsed, parsed.file.render_eq_outline, ?_⟩
  rw [parsed.file.render_eq_outline, SourceFile.outline, Outline.layout_form hclean]
  -- Behind a line feed, the outline would be an item at depth zero.
  have hnone : List.Forall₂ Outline.StartsLine (Layout.behindFeeds []) [] := .nil
  have hlines := Outline.startsLine_item hclean 0 hnone
  have hjoined := Outline.joinFrom_laid hclean 0 []
  rw [List.append_nil] at hlines hjoined
  rw [List.append_nil] at hlines
  exact ⟨hlines, by simpa [Layout.joinFrom] using hjoined⟩

example : layout "(a \"(\" (b (c)) (d))" = "(a \"(\"\n  (b\n    (c))\n  (d))" := by
  decide +kernel

end Linewise
