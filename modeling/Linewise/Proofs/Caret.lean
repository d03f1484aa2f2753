import Linewise.Proofs.Lines
import Linewise.Proofs.Lossless
import Linewise.Proofs.Report

/-!
# The caret under a diagnostic

A diagnostic is shown with the line it points at and a caret below.  The caret is moved by
one character for every byte of the line between the first character shown and the place of
the diagnostic, so it stands under that place exactly if all characters between the two are
one byte long.
-/

namespace Linewise

namespace Text

def isMargin (c : Char) : Bool := c == ' ' || c == '\t'

def lastLine (cs : List Char) : List Char := (cs.reverse.takeWhile (fun c => c != '\n')).reverse

/-- The characters of the last line of a text, from the first one that is shown. -/
def shownBefore (front : List Char) : List Char := (lastLine front).dropWhile isMargin

/-!
## Characters and bytes
-/

theorem length_le_byteLength (cs : List Char) : cs.length <= byteLength cs := by
  induction cs with
  | nil => exact Nat.le_refl 0
  | cons c cs ih =>
      have hsize := c.utf8Size_pos
      rw [List.length_cons, byteLength_cons]
      omega

theorem byteLength_eq_length (cs : List Char) :
    byteLength cs = cs.length <-> forall c, c ∈ cs -> c.utf8Size = 1 := by
  induction cs with
  | nil => simp
  | cons c cs ih =>
      have hsize := c.utf8Size_pos
      have hle := length_le_byteLength cs
      rw [byteLength_cons, List.length_cons, List.forall_mem_cons, ← ih]
      omega

theorem exists_append_of_byteLength_le {front back before rest : List Char}
    (h : front ++ back = before ++ rest) (hle : byteLength before <= byteLength front) :
    exists inner, front = before ++ inner ∧ rest = inner ++ back := by
  rcases List.append_eq_append_iff.mp h with ⟨more, hbefore, hback⟩ | ⟨inner, hfront, hrest⟩
  · have hnone : more = [] := by
      have hlength := length_le_byteLength more
      rw [hbefore, byteLength_append] at hle
      exact List.eq_nil_of_length_eq_zero (by omega)
    subst hnone
    exact ⟨[], by rw [List.append_nil, hbefore, List.append_nil], hback.symm⟩
  · exact ⟨inner, hfront, hrest⟩

theorem slice?_eq_some {start stop : Nat} {cs inner : List Char}
    (h : slice? start stop cs = some inner) :
    exists front back, cs = front ++ back ∧ byteLength front = start := by
  unfold slice? dropBytes? at h
  cases hsplit : splitAtByte? start cs with
  | none => simp [hsplit] at h
  | some parts => exact ⟨parts.1, parts.2, splitAtByte?_eq_some hsplit⟩

theorem lastLine_append {before inner : List Char}
    (hcomplete : before = [] ∨ exists front, before = front ++ ['\n']) (hinner : '\n' ∉ inner) :
    lastLine (before ++ inner) = inner := by
  have hall : forall c, c ∈ inner.reverse -> (c != '\n') = true := by
    intro c hc
    rw [bne_iff_ne]
    rintro rfl
    exact hinner (List.mem_reverse.mp hc)
  rw [lastLine, List.reverse_append, List.takeWhile_append_of_pos hall]
  rcases hcomplete with rfl | ⟨front, rfl⟩ <;> simp

end Text

namespace Diagnostic

open Text

/-!
## The column of the caret
-/

theorem caretOffset_append (inner rest : List Char) :
    caretOffset (inner ++ rest) (byteLength inner) = byteLength (inner.dropWhile isMargin) := by
  change byteLength inner - ((inner ++ rest).takeWhile isMargin).length = _
  induction inner with
  | nil => exact Nat.zero_sub _
  | cons c inner ih =>
      cases hc : isMargin c with
      | true =>
          have hsize : c.utf8Size = 1 := by
            rcases Bool.or_eq_true_iff.mp hc with hc | hc
            · rw [beq_iff_eq.mp hc]
              rfl
            · rw [beq_iff_eq.mp hc]
              rfl
          rw [List.cons_append, List.takeWhile_cons_of_pos hc, List.dropWhile_cons_of_pos hc,
            List.length_cons, byteLength_cons, hsize, ← ih, Nat.add_comm 1,
            Nat.add_sub_add_right]
      | false =>
          have hnot : ¬ isMargin c = true := by simp [hc]
          rw [List.cons_append, List.takeWhile_cons_of_neg hnot, List.dropWhile_cons_of_neg hnot]
          rfl

theorem placeOf_between {source : String} {front back : List Char}
    (h : source.toList = front ++ back) :
    exists place, placeOf source (byteLength front) = some place ∧
      caretOffset place.text.toList place.column = byteLength (shownBefore front) := by
  rcases placeOf_cases source (byteLength front) with
    ⟨_, hbehind⟩ | ⟨before, body, ending, behind, hsplit, haround, hplace⟩
  · rw [h, byteLength_append] at hbehind
    omega
  · refine ⟨_, hplace, ?_⟩
    rw [h] at hsplit
    rcases exists_append_of_byteLength_le hsplit haround.reached with ⟨inner, hfront, hrest⟩
    have hinside := haround.inside
    rw [hfront, byteLength_append] at hinside
    rcases exists_append_of_byteLength_le hrest (by omega) with ⟨more, hbody, _⟩
    have hsingle := haround.single
    rw [hbody, List.mem_append, not_or] at hsingle
    rw [hfront, shownBefore, lastLine_append haround.complete hsingle.1,
      ← caretOffset_append inner (more ++ ending), String.toList_ofList, hbody,
      List.append_assoc, byteLength_append, Nat.add_sub_cancel_left]

/-!
## The last line of a rendering
-/

def caretLine (rendered : String) : List Char := Text.lastLine rendered.toList.dropLast

/-- The number of characters of the last line between the gutter, which is a bar and a
space, and the caret. -/
def caretDistance (rendered : String) : Nat :=
  ((((caretLine rendered).dropWhile (fun c => c != '|')).drop 2).takeWhile
    (fun c => c != '^')).length

def caretRow (width dashes : Nat) : List Char :=
  List.replicate width ' ' ++ '|' :: ' ' :: (List.replicate dashes '-' ++ ['^'])

theorem caretDistance_eq {rendered : String} {upper : List Char} {width dashes : Nat}
    (h : rendered.toList = upper ++ '\n' :: (caretRow width dashes ++ ['\n'])) :
    caretDistance rendered = dashes := by
  have hline : caretLine rendered = caretRow width dashes := by
    have hfeed : '\n' ∉ caretRow width dashes := by simp [caretRow]
    rw [caretLine, h, ← List.singleton_append, ← List.append_assoc, ← List.append_assoc,
      List.dropLast_concat, lastLine_append (.inr ⟨upper, rfl⟩) hfeed]
  have hmargin : forall c, c ∈ List.replicate width ' ' -> (c != '|') = true := by simp
  have hdashes : forall c, c ∈ List.replicate dashes '-' -> (c != '^') = true := by simp
  rw [caretDistance, hline, caretRow, List.dropWhile_append_of_pos hmargin,
    List.dropWhile_cons_of_neg (by simp), List.drop_succ_cons, List.drop_succ_cons,
    List.drop_zero, List.takeWhile_append_of_pos hdashes, List.takeWhile_cons_of_neg (by simp),
    List.append_nil, List.length_replicate]

theorem caretDistance_below (headline upper : String) (width dashes : Nat) :
    caretDistance (headline ++ (upper ++ "\n" ++
      (String.ofList (List.replicate width ' ') ++ "|") ++ " " ++
      String.ofList (List.replicate dashes '-') ++ "^\n")) = dashes := by
  have hbar : "|".toList = ['|'] := rfl
  have hspace : " ".toList = [' '] := rfl
  have hfeed : "\n".toList = ['\n'] := rfl
  have hcaret : "^\n".toList = ['^', '\n'] := rfl
  have htext : (headline ++ (upper ++ "\n" ++
      (String.ofList (List.replicate width ' ') ++ "|") ++ " " ++
      String.ofList (List.replicate dashes '-') ++ "^\n")).toList =
      (headline.toList ++ upper.toList) ++ '\n' :: (caretRow width dashes ++ ['\n']) := by
    simp [caretRow, hbar, hspace, hfeed, hcaret]
  exact caretDistance_eq htext

theorem caretDistance_render {diagnostic : Diagnostic} {source : String} {place : Place}
    (h : placeOf source diagnostic.span.start = some place) (file : String) :
    caretDistance (diagnostic.render source file) =
      caretOffset place.text.toList place.column := by
  unfold render
  dsimp only
  rw [h]
  exact caretDistance_below _ _ _ _

end Diagnostic

/-!
## Diagnostics of a text
-/

theorem Reports.exists_token {read : List Token} {token : Token} {noted : List Diagnostic}
    {g : Diagnostic} (h : Reports read token noted) (hg : g ∈ noted) :
    exists t, t ∈ read ++ [token] ∧ t.span = g.span := by
  cases h with
  | inside _ h => exact h.exists_token hg
  | atEnd _ h hlate =>
      rcases List.mem_append.mp hg with hg | hg
      · rcases h.exists_token hg with ⟨t, ht, hspan⟩
        exact ⟨t, List.mem_append_left _ ht, hspan⟩
      · exact ⟨token, by simp, (hlate.span hg).symm⟩

theorem parse_placed (source : String) :
    exists parsed, parse source = .ok parsed ∧
      forall g, g ∈ parsed.errors -> exists t, t ∈ (tokenize source).1 ∧ t.span = g.span := by
  have hfits : reportRecovery.Fits (Cursor.ofTokens (tokenize source).1) :=
    ⟨fun t ht => (admits_tokenize (Cursor.mem_of_mem_ahead ht)).2, Cursor.final_ofTokens _⟩
  rcases parseTokens_lists reportRecovery hfits with
    ⟨parsed, read, d, hparsed, passage, hend, hlists⟩
  have hreports : Reports read d.current parsed.errors := hlists
  rcases tokenize_wellFormed source with ⟨body, stop, htokens, hbody⟩
  refine ⟨_, parse_eq hparsed, ?_⟩
  intro g hg
  rcases mem_mergeErrors.mp hg with hlexical | hstructural
  · rcases tokenize_stray hlexical with ⟨t, ht, _, hspan⟩
    exact ⟨t, ht, hspan⟩
  · rcases hreports.exists_token hstructural with ⟨t, ht, hspan⟩
    rw [htokens] at passage ⊢
    have hread := read_sublist rfl (fun t ht => (hbody t ht).inside) passage hend
    exact ⟨t, hread.subset ht, hspan⟩

theorem tokenize_between {source : String}
    (hshort : Text.byteLength source.toList <= Span.maxOffset) {t : Token}
    (ht : t ∈ (tokenize source).1) :
    exists front back, source.toList = front ++ back ∧
      Text.byteLength front = t.span.start := by
  rcases Lexical.exists_run 0 none source.toList with ⟨found, hrun⟩
  rw [hrun.tokenize_whole hshort] at ht
  rcases List.mem_append.mp ht with ht | ht
  · have hcover := hrun.cover [] rfl (by simpa using hshort)
    exact Text.slice?_eq_some (hcover.texts t ht)
  · have hspan : (Token.endAt (Text.byteLength source.toList)).span =
        ⟨Text.byteLength source.toList, Text.byteLength source.toList⟩ :=
      Span.between_eq hshort hshort
    rw [List.mem_singleton.mp ht, hspan]
    exact ⟨source.toList, [], (List.append_nil _).symm, rfl⟩

/-- A diagnostic stands between two characters of the text, and the caret of its rendering
is moved from the gutter by the bytes of what is shown of the line in front.  So it stands
below the place of the diagnostic exactly if each of those characters takes one byte. -/
theorem render_caret (source file : String)
    (hshort : Text.byteLength source.toList < 4294967296) :
    exists parsed, parse source = .ok parsed ∧
      forall d, d ∈ parsed.errors ->
        exists front back, source.toList = front ++ back ∧
          Text.byteLength front = d.span.start ∧
          Diagnostic.caretDistance (d.render source file) =
            Text.byteLength (Text.shownBefore front) ∧
          (Diagnostic.caretDistance (d.render source file) =
              (Text.shownBefore front).length <->
            forall c, c ∈ Text.shownBefore front -> c.utf8Size = 1) := by
  rcases parse_placed source with ⟨parsed, hparsed, hplaced⟩
  refine ⟨parsed, hparsed, ?_⟩
  intro d hd
  rcases hplaced d hd with ⟨t, ht, hspan⟩
  rcases tokenize_between (Nat.le_of_lt_succ hshort) ht with ⟨front, back, hsplit, hstart⟩
  rw [hspan] at hstart
  rcases Diagnostic.placeOf_between hsplit with ⟨place, hplace, hcaret⟩
  rw [hstart] at hplace
  have hdistance := Diagnostic.caretDistance_render hplace file
  rw [hcaret] at hdistance
  refine ⟨front, back, hsplit, hstart, hdistance, ?_⟩
  rw [hdistance]
  exact Text.byteLength_eq_length _

/-- In `x : é )` the closing parenthesis stands behind six characters of seven bytes, and
its caret is moved by seven. -/
theorem render_caret_accent :
    exists parsed d front back, parse "x : é )" = .ok parsed ∧ parsed.errors = [d] ∧
      "x : é )".toList = front ++ back ∧ Text.byteLength front = d.span.start ∧
      (Text.shownBefore front).length = 6 ∧
      Diagnostic.caretDistance (d.render "x : é )" "main.wpl") = 7 := by
  have hshort : Text.byteLength "x : é )".toList < 4294967296 := by decide +kernel
  rcases render_caret "x : é )" "main.wpl" hshort with ⟨parsed, hparsed, hcarets⟩
  have herrors : (parse "x : é )").toOption.map (fun parsed => parsed.errors) =
      some [{ cause := .unexpected "line break or end of input" "`)`", span := ⟨7, 8⟩ }] := by
    decide +kernel
  rw [hparsed] at herrors
  have hone := Option.some.inj herrors
  rcases hcarets _ (hone ▸ List.mem_singleton_self _) with
    ⟨front, back, hsplit, hstart, hdistance, _⟩
  have hfront : front = ['x', ' ', ':', ' ', 'é', ' '] := by
    have hcut := Text.splitAtByte?_append front back
    have hseven : Text.splitAtByte? 7 "x : é )".toList =
        some (['x', ' ', ':', ' ', 'é', ' '], [')']) := by decide +kernel
    rw [← hsplit, hstart, hseven] at hcut
    cases hcut
    rfl
  subst hfront
  exact ⟨parsed, _, _, back, hparsed, hone, hsplit, hstart, by decide, hdistance⟩

end Linewise
