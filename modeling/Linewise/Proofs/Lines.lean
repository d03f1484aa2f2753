import Linewise.Text.Line
import Mathlib.Data.List.Basic

/-!
# The line of a position

Looking a position up among the lines of a text cuts the text around one of them.  Counted
in bytes, the line begins behind the last line feed in front of the position and ends with
the next one, and its number is one more than the number of line feeds in front of the
position.
-/

namespace Linewise
namespace Text

/-!
## Cutting a text around a line
-/

/-- Lines one behind the other: all of them end with their only line feed, but the last one
may go without. -/
inductive AreLines : List (List Char) -> Prop where
  | nil : AreLines []
  | last {body : List Char} (hbody : '\n' ∉ body) : AreLines [body]
  | line {body : List Char} {rest : List (List Char)} (hbody : '\n' ∉ body)
      (hrest : AreLines rest) : AreLines ((body ++ ['\n']) :: rest)

theorem areLines_lines (cs : List Char) : AreLines (lines cs) ∧ (lines cs).flatten = cs := by
  induction cs with
  | nil => exact ⟨.nil, rfl⟩
  | cons c cs ih =>
      rcases ih with ⟨hlines, hflatten⟩
      rw [lines]
      by_cases hc : c = '\n'
      · rw [if_pos hc, hc]
        exact ⟨@AreLines.line [] _ (by simp) hlines, congrArg (List.cons '\n') hflatten⟩
      · rw [if_neg hc]
        generalize lines cs = found at hlines hflatten
        subst hflatten
        cases hlines with
        | nil => exact ⟨.last (by simpa using Ne.symm hc), rfl⟩
        | last hbody => exact ⟨.last (by simp [Ne.symm hc, hbody]), rfl⟩
        | @line body rest hbody hrest =>
            refine ⟨?_, rfl⟩
            exact @AreLines.line (c :: body) _ (by simp [Ne.symm hc, hbody]) hrest

/-- A text is cut around a line: in front of it whole lines, then its characters, its line
feed unless it is the last line, and what follows.  The position lies in the line, or at its
end. -/
structure Around (before body ending behind : List Char) (position : Nat) : Prop where
  complete : before = [] ∨ exists front, before = front ++ ['\n']
  single : '\n' ∉ body
  closed : ending = ['\n'] ∨ ending = [] ∧ behind = []
  reached : byteLength before <= position
  inside : position <= byteLength before + byteLength body

theorem holds_body {body ending : List Char} (position : Nat)
    (hending : ending = ['\n'] ∨ ending = []) (hbody : '\n' ∉ body) :
    holds (body ++ ending) position = decide (position <= byteLength body) := by
  rcases hending with rfl | rfl
  · have hsize : Char.utf8Size '\n' = 1 := by decide
    rw [Bool.eq_iff_iff]
    simp only [holds, byteLength_append, byteLength_cons, byteLength_nil, hsize,
      List.getLast?_concat, bne_self_eq_false, Bool.and_false, Bool.or_false,
      decide_eq_true_eq, Nat.add_zero]
    omega
  · have hlast : (body.getLast? != some '\n') = true :=
      bne_iff_ne.mpr (fun h => hbody (List.mem_of_getLast? h))
    rw [Bool.eq_iff_iff]
    simp [holds, hlast, Nat.le_iff_lt_or_eq]

/-- A position is looked up among lines exactly if it is not behind them, and then they are
cut around the line that is found. -/
theorem placeFrom_cases {found : List (List Char)} (h : AreLines found) (number position : Nat) :
    (placeFrom number found position = none ∧ byteLength found.flatten < position) ∨
      exists before body ending behind,
        found.flatten = before ++ (body ++ (ending ++ behind)) ∧
        Around before body ending behind position ∧
        placeFrom number found position = some
          { number := number + before.count '\n'
            text := String.ofList (body ++ ending)
            column := position - byteLength before } := by
  induction h generalizing number position with
  | nil =>
      by_cases hposition : position = 0
      · subst hposition
        exact .inr ⟨[], [], [], [], rfl, ⟨.inl rfl, by simp, .inr ⟨rfl, rfl⟩, by simp, by simp⟩,
          rfl⟩
      · refine .inl ⟨by simp [placeFrom, hposition], ?_⟩
        simp
        omega
  | @last body hbody =>
      have hholds := holds_body position (.inr rfl) hbody
      rw [List.append_nil] at hholds
      by_cases hposition : position <= byteLength body
      · refine .inr ⟨[], body, [], [], by simp, ⟨.inl rfl, hbody, .inr ⟨rfl, rfl⟩, ?_, ?_⟩, ?_⟩
        · simp
        · simpa using hposition
        · simp [placeFrom, hholds, hposition]
      · refine .inl ⟨?_, by simp; omega⟩
        have hrest : position - byteLength body ≠ 0 := by omega
        simp [placeFrom, hholds, hposition, hrest]
  | @line body rest hbody hrest ih =>
      have hholds := holds_body position (.inl rfl) hbody
      have hsize : byteLength (body ++ ['\n']) = byteLength body + 1 := by
        rw [byteLength_append]
        rfl
      by_cases hposition : position <= byteLength body
      · refine .inr ⟨[], body, ['\n'], rest.flatten, by simp,
          ⟨.inl rfl, hbody, .inl rfl, ?_, ?_⟩, ?_⟩
        · simp
        · simpa using hposition
        · simp [placeFrom, hholds, hposition]
      -- The position is behind this line: its bytes come off, and its line feed counts one.
      · have hpast : byteLength (body ++ ['\n']) <= position := by omega
        have hnext : placeFrom number ((body ++ ['\n']) :: rest) position =
            placeFrom (number + 1) rest (position - byteLength (body ++ ['\n'])) := by
          rw [placeFrom, hholds, if_neg (by simpa using hposition), if_pos hpast]
        rw [hnext, List.flatten_cons]
        rcases ih (number + 1) (position - byteLength (body ++ ['\n'])) with
          ⟨hnone, hbehind⟩ | ⟨before, inner, ending, behind, hsplit, haround, hplace⟩
        · refine .inl ⟨hnone, ?_⟩
          rw [byteLength_append]
          omega
        · have hreached := haround.reached
          have hinside := haround.inside
          refine .inr ⟨body ++ ['\n'] ++ before, inner, ending, behind, ?_,
            ⟨.inr ?_, haround.single, haround.closed, ?_, ?_⟩, ?_⟩
          · rw [hsplit, List.append_assoc _ before]
          · rcases haround.complete with rfl | ⟨front, rfl⟩
            · exact ⟨body, by simp⟩
            · exact ⟨body ++ ['\n'] ++ front, by simp⟩
          · rw [byteLength_append]
            omega
          · rw [byteLength_append]
            omega
          · have hcount : number + (body ++ ['\n'] ++ before).count '\n' =
                number + 1 + before.count '\n' := by
              simp [List.count_eq_zero_of_not_mem hbody]
              omega
            rw [hplace, hcount, byteLength_append _ before, Nat.sub_sub]

theorem placeOf_cases (source : String) (position : Nat) :
    (placeOf source position = none ∧ byteLength source.toList < position) ∨
      exists before body ending behind,
        source.toList = before ++ (body ++ (ending ++ behind)) ∧
        Around before body ending behind position ∧
        placeOf source position = some
          { number := 1 + before.count '\n'
            text := String.ofList (body ++ ending)
            column := position - byteLength before } := by
  rcases areLines_lines source.toList with ⟨hlines, hflatten⟩
  have hcases := placeFrom_cases hlines 1 position
  rw [hflatten] at hcases
  exact hcases

/-!
## Bytes of a text
-/

def bytes (text : String) : List UInt8 := text.toUTF8.data.toList

def lineFeed : UInt8 := 10

def lastFeed? (bytes : List UInt8) (position : Nat) : Option Nat :=
  (List.range position).reverse.find? (fun offset => bytes[offset]? == some lineFeed)

/-- Where the line of a position begins: behind the last line feed in front of the
position, or at the start of the text. -/
def lineStart (bytes : List UInt8) (position : Nat) : Nat :=
  match lastFeed? bytes position with
  | some offset => offset + 1
  | none => 0

def throughFeed (bytes : List UInt8) (start : Nat) : List UInt8 :=
  let rest := bytes.drop start
  rest.take (rest.idxOf lineFeed + 1)

theorem bytes_eq (text : String) : bytes text = text.toList.flatMap String.utf8EncodeChar := by
  rw [bytes, String.toUTF8_eq_toByteArray, ← String.ofList_toList (s := text),
    String.toByteArray_ofList, List.utf8Encode, List.toList_data_toByteArray,
    String.toList_ofList]

theorem bytes_ofList (cs : List Char) :
    bytes (String.ofList cs) = cs.flatMap String.utf8EncodeChar := by
  rw [bytes_eq, String.toList_ofList]

theorem bytes_ofList_append (front back : List Char) :
    bytes (String.ofList (front ++ back)) =
      bytes (String.ofList front) ++ bytes (String.ofList back) := by
  simp only [bytes_ofList, List.flatMap_append]

theorem length_bytes (cs : List Char) : (bytes (String.ofList cs)).length = byteLength cs := by
  rw [bytes_ofList]
  induction cs with
  | nil => rfl
  | cons c cs ih =>
      rw [List.flatMap_cons, List.length_append, String.length_utf8EncodeChar, ih,
        byteLength_cons]

theorem lineFeed_notMem_encode {c : Char} (hc : c ≠ '\n') :
    lineFeed ∉ String.utf8EncodeChar c := by
  have hvalue : c.val.toNat ≠ 10 := fun h => hc (Char.ext (UInt32.toNat_inj.mp h))
  have hbyte : forall n, n % 256 ≠ 10 -> lineFeed ≠ UInt8.ofNat n := by
    intro n hn h
    apply hn
    rw [← UInt8.toNat_ofNat', ← h]
    rfl
  unfold String.utf8EncodeChar
  dsimp only
  split_ifs
  · simp only [List.mem_singleton]
    exact hbyte _ (by omega)
  · simp only [List.mem_cons, List.not_mem_nil, or_false, not_or]
    exact ⟨hbyte _ (by omega), hbyte _ (by omega)⟩
  · simp only [List.mem_cons, List.not_mem_nil, or_false, not_or]
    exact ⟨hbyte _ (by omega), hbyte _ (by omega), hbyte _ (by omega)⟩
  · simp only [List.mem_cons, List.not_mem_nil, or_false, not_or]
    exact ⟨hbyte _ (by omega), hbyte _ (by omega), hbyte _ (by omega), hbyte _ (by omega)⟩

theorem lineFeed_notMem_bytes {cs : List Char} (h : '\n' ∉ cs) :
    lineFeed ∉ bytes (String.ofList cs) := by
  rw [bytes_ofList]
  intro hmem
  rcases List.mem_flatMap.mp hmem with ⟨c, hc, hbyte⟩
  exact lineFeed_notMem_encode (fun heq => h (heq ▸ hc)) hbyte

theorem count_lineFeed (cs : List Char) :
    (bytes (String.ofList cs)).count lineFeed = cs.count '\n' := by
  rw [bytes_ofList]
  induction cs with
  | nil => rfl
  | cons c cs ih =>
      rw [List.flatMap_cons, List.count_append, ih, List.count_cons]
      by_cases hc : c = '\n'
      · subst hc
        have hone : (String.utf8EncodeChar '\n').count lineFeed = 1 := by decide
        rw [hone, if_pos (beq_self_eq_true _), Nat.add_comm]
      · rw [List.count_eq_zero_of_not_mem (lineFeed_notMem_encode hc), if_neg (by simpa using hc),
          Nat.zero_add, Nat.add_zero]

/-!
## The line in bytes
-/

section Cut

variable {before body behind : List UInt8} {position : Nat}

theorem take_cut (hreached : before.length <= position)
    (hinside : position <= before.length + body.length) :
    (before ++ (body ++ behind)).take position =
      before ++ body.take (position - before.length) := by
  rw [List.take_append, List.take_of_length_le hreached,
    List.take_append_of_le_length (by omega)]

theorem find?_inside (hbody : lineFeed ∉ body) (offsets : List Nat)
    (hoffsets : forall offset, offset ∈ offsets -> before.length <= offset ∧
      offset < before.length + body.length) :
    offsets.find? (fun offset => (before ++ (body ++ behind))[offset]? == some lineFeed) =
      none := by
  apply List.find?_eq_none.mpr
  intro offset hoffset hfeed
  rcases hoffsets offset hoffset with ⟨hlow, hhigh⟩
  rw [List.getElem?_append_right hlow, List.getElem?_append_left (by omega), beq_iff_eq] at hfeed
  exact hbody (List.mem_of_getElem? hfeed)

theorem lineStart_cut (hcomplete : before = [] ∨ exists front, before = front ++ [lineFeed])
    (hbody : lineFeed ∉ body) (hreached : before.length <= position)
    (hinside : position <= before.length + body.length) :
    lineStart (before ++ (body ++ behind)) position = before.length := by
  have hrange : List.range position =
      List.range before.length ++
        (List.range (position - before.length)).map (before.length + ·) := by
    rw [← List.range_add, Nat.add_sub_cancel' hreached]
  rw [lineStart, lastFeed?, hrange, List.reverse_append, List.find?_append,
    find?_inside hbody _ (by simp; omega), Option.none_or]
  rcases hcomplete with rfl | ⟨front, rfl⟩
  · rfl
  · rw [List.length_append, List.length_singleton, List.range_succ, List.reverse_append,
      List.reverse_singleton, List.singleton_append, List.find?_cons_of_pos (by simp)]

theorem throughFeed_cut {ending : List UInt8} (hbody : lineFeed ∉ body)
    (hclosed : ending = [lineFeed] ∨ ending = [] ∧ behind = []) :
    throughFeed (before ++ (body ++ (ending ++ behind))) before.length = body ++ ending := by
  unfold throughFeed
  dsimp only
  rw [List.drop_left]
  rcases hclosed with rfl | ⟨rfl, rfl⟩
  · rw [List.idxOf_append_of_notMem hbody, List.singleton_append, List.idxOf_cons_self,
      Nat.add_zero, List.take_length_add_append, List.take_succ_cons, List.take_zero]
  · rw [List.append_nil, List.append_nil, List.idxOf_of_notMem hbody,
      List.take_of_length_le (Nat.le_succ _)]

end Cut

/-- A place tells the line of a position: its number is one more than the number of line
feeds in front of the position, the column counts from the start of the line, and the text
goes from there through the next line feed. -/
structure Place.Describes (place : Place) (source : List UInt8) (position : Nat) : Prop where
  number : place.number = 1 + (source.take position).count lineFeed
  column : place.column = position - lineStart source position
  text : bytes place.text = throughFeed source (lineStart source position)

theorem Around.describes {before body ending behind : List Char} {position : Nat}
    (h : Around before body ending behind position) :
    Place.Describes
      { number := 1 + before.count '\n'
        text := String.ofList (body ++ ending)
        column := position - byteLength before }
      (bytes (String.ofList (before ++ (body ++ (ending ++ behind))))) position := by
  have hbody := lineFeed_notMem_bytes h.single
  have hreached : (bytes (String.ofList before)).length <= position := by
    rw [length_bytes]
    exact h.reached
  have hinside : position <=
      (bytes (String.ofList before)).length + (bytes (String.ofList body)).length := by
    rw [length_bytes, length_bytes]
    exact h.inside
  have hfeed : bytes (String.ofList ['\n']) = [lineFeed] := by decide
  have hnone : bytes (String.ofList []) = [] := by decide
  have hcomplete : bytes (String.ofList before) = [] ∨
      exists front, bytes (String.ofList before) = front ++ [lineFeed] := by
    rcases h.complete with rfl | ⟨front, rfl⟩
    · exact .inl hnone
    · exact .inr ⟨_, by rw [bytes_ofList_append, hfeed]⟩
  have hclosed : bytes (String.ofList ending) = [lineFeed] ∨
      bytes (String.ofList ending) = [] ∧ bytes (String.ofList behind) = [] := by
    rcases h.closed with rfl | ⟨rfl, rfl⟩
    · exact .inl hfeed
    · exact .inr ⟨hnone, hnone⟩
  have hinner : ((bytes (String.ofList body)).take
      (position - (bytes (String.ofList before)).length)).count lineFeed = 0 :=
    List.count_eq_zero_of_not_mem (fun hmem => hbody (List.mem_of_mem_take hmem))
  simp only [bytes_ofList_append]
  constructor
  · rw [take_cut hreached hinside, List.count_append, hinner, count_lineFeed, Nat.add_zero]
  · rw [lineStart_cut hcomplete hbody hreached hinside, length_bytes]
  · rw [lineStart_cut hcomplete hbody hreached hinside, throughFeed_cut hbody hclosed,
      bytes_ofList_append]

/-- A position is looked up exactly if it is not behind the text, and what is found describes
its line. -/
theorem placeOf_describes (source : String) (position : Nat) :
    (placeOf source position = none <-> (bytes source).length < position) ∧
      forall place, placeOf source position = some place ->
        place.Describes (bytes source) position := by
  have hlength := length_bytes source.toList
  rw [String.ofList_toList] at hlength
  rw [hlength]
  rcases placeOf_cases source position with
    ⟨hnone, hbehind⟩ | ⟨before, body, ending, behind, hsplit, haround, hplace⟩
  · rw [hnone]
    constructor
    · simp [hbehind]
    · intro place hplace
      cases hplace
  · have hinside := haround.inside
    have hdescribes := haround.describes
    rw [← hsplit, String.ofList_toList] at hdescribes
    rw [hplace, hsplit, byteLength_append, byteLength_append]
    constructor
    · simp
      omega
    · intro place hfound
      cases hfound
      exact hdescribes

/-- Behind the last character of `é\nb`, the line is the second one, and its first
character was passed. -/
theorem placeOf_describes_end : exists place, placeOf "é\nb" 4 = some place ∧
    place.Describes (bytes "é\nb") 4 ∧ place = { number := 2, text := "b", column := 1 } := by
  have hplace : placeOf "é\nb" 4 = some { number := 2, text := "b", column := 1 } := by
    decide +kernel
  exact ⟨_, hplace, (placeOf_describes "é\nb" 4).2 _ hplace, rfl⟩

end Text
end Linewise
