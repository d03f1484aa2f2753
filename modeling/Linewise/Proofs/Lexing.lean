import Linewise.Proofs.Account
import Linewise.Token.Stream

/-!
# Tokens of a text

The tokens of a text are well formed: a token of a kind with one spelling is
spelled that way, a text has its two quotes, and the token behind the text comes
last and only there.  In a text whose length a span can hold they stand one
behind the other.
-/

namespace Linewise

namespace Token

/-- A token of a kind with only one spelling is spelled that way. -/
def Spelled (token : Token) : Prop :=
  forall spelling, token.kind.spelling? = some spelling -> token.value = spelling

theorem symbol_of_spelled {token : Token} (h : token.Spelled) :
    token.symbol = .word token.kind token.value := by
  unfold symbol Kind.symbol
  cases hspelling : token.kind.spelling? with
  | none => rfl
  | some spelling => rw [Option.getD_some, h spelling hspelling]

/-- What holds of every token that is read from the head of a text. -/
structure WellFormed (token : Token) : Prop where
  spelled : token.Spelled
  quoted : token.Quoted
  inside : token.kind ≠ .endOfInput

theorem wellFormed_of_plain {token : Token} (hspelling : token.kind.spelling? = none)
    (htext : token.kind ≠ .text) (hend : token.kind ≠ .endOfInput) : token.WellFormed where
  spelled := by
    intro spelling hsome
    rw [hspelling] at hsome
    cases hsome
  quoted := fun hkind => absurd hkind htext
  inside := hend

theorem wellFormed_of_spelling {token : Token} (h : token.kind.spelling? = some token.value) :
    token.WellFormed where
  spelled := by
    intro spelling hspelling
    rw [h] at hspelling
    exact Option.some.inj hspelling
  quoted := by
    intro hkind
    rw [hkind] at h
    cases h
  inside := by
    intro hkind
    rw [hkind] at h
    cases h

end Token

namespace Lexical

/-!
## The token at the head of a text
-/

theorem mem_of_longest {found : List (Kind × Nat)} {kind : Kind} {width : Nat}
    (h : longest found = some (kind, width)) : (kind, width) ∈ found ∧ 0 < width := by
  induction found generalizing kind width with
  | nil => cases h
  | cons first rest ih =>
      rcases first with ⟨other, length⟩
      unfold longest at h
      cases hrest : longest rest with
      | none =>
          rw [hrest] at h
          simp only at h
          split at h
          · cases h
          · rename_i hlength
            cases h
            exact ⟨List.mem_cons_self, Nat.pos_of_ne_zero hlength⟩
      | some best =>
          rcases best with ⟨kind', most⟩
          have hbest := ih hrest
          rw [hrest] at h
          simp only at h
          split at h
          · cases h
            exact ⟨List.mem_cons_of_mem _ hbest.1, hbest.2⟩
          · rename_i hlength
            cases h
            exact ⟨List.mem_cons_self, by omega⟩

theorem take_markLength {mark : Mark} {cs : List Char} (h : 0 < markLength mark cs) :
    cs.take (markLength mark cs) = mark.spelling.toList := by
  unfold markLength at h ⊢
  simp only at h ⊢
  split at h
  · rename_i hprefix
    rcases List.isPrefixOf_iff_prefix.mp hprefix with ⟨rest, hrest⟩
    rw [if_pos hprefix, ← hrest, List.take_left]
  · exact absurd h (Nat.lt_irrefl 0)

theorem take_textLength {cs : List Char} (h : 0 < textLength cs) :
    exists body, cs.take (textLength cs) = '"' :: (body ++ ['"']) := by
  unfold textLength at h ⊢
  split at h
  · rename_i rest
    simp only at h ⊢
    split at h
    · rename_i hlength
      have hsplit := List.takeWhile_append_dropWhile (p := fun c => c != '"') (l := rest)
      cases hdrop : rest.dropWhile (fun c => c != '"') with
      | nil =>
          rw [hdrop, List.append_nil] at hsplit
          rw [hsplit] at hlength
          exact absurd hlength (Nat.lt_irrefl _)
      | cons quote behind =>
          have hquote := List.head?_dropWhile_not (fun c => c != '"') rest
          rw [hdrop] at hquote
          have hquote : quote = '"' := by simpa using hquote
          generalize rest.takeWhile (fun c => c != '"') = body at hsplit hlength ⊢
          have hrest : rest = (body ++ ['"']) ++ behind := by
            rw [← hsplit, hdrop, hquote, List.append_assoc, List.singleton_append]
          have htake : rest.take (body.length + 1) = body ++ ['"'] := by
            rw [hrest, ← List.length_singleton, ← List.length_append, List.take_left]
          exact ⟨body, by rw [if_pos hlength, List.take_succ_cons, htake]⟩
    · exact absurd h (Nat.lt_irrefl 0)
  · exact absurd h (Nat.lt_irrefl 0)

theorem spelling_of_ofReserved? {word : String} {kind : Kind}
    (h : Kind.ofReserved? word = some kind) : kind.spelling? = some word := by
  unfold Kind.ofReserved? at h
  split at h
  · rename_i hword
    cases h
    rw [hword]
    rfl
  · split at h
    · rename_i reserved hfound
      cases h
      have hspelling := List.find?_some hfound
      simpa [Kind.spelling?] using hspelling
    · cases h

/-- Of all the classes only texts, words and marks say something about how a token
is spelled. -/
theorem wellFormed_of_head? {signed : Bool} {cs : List Char} {kind : Kind} {width : Nat}
    (h : head? signed cs = some (kind, width)) (span : Span) :
    Token.WellFormed { kind := kind, value := String.ofList (cs.take width), span := span } := by
  rcases mem_of_longest h with ⟨hmem, hwidth⟩
  unfold candidates at hmem
  rcases List.mem_append.mp hmem with hclass | hmark
  · simp only [List.mem_cons, List.not_mem_nil, or_false, Prod.mk.injEq] at hclass
    rcases hclass with ⟨rfl, rfl⟩ | ⟨rfl, rfl⟩ | ⟨rfl, rfl⟩ | ⟨rfl, rfl⟩ | ⟨rfl, rfl⟩ |
      ⟨rfl, rfl⟩ | ⟨rfl, rfl⟩
    · exact Token.wellFormed_of_plain rfl (by simp) (by simp)
    · refine ⟨fun spelling hspelling => ?_, fun _ => ?_, by simp⟩
      · cases hspelling
      · rcases take_textLength hwidth with ⟨body, hbody⟩
        exists String.ofList body
        simp only [hbody, Symbol.quoted]
        apply String.toList_inj.mp
        simp
    · exact Token.wellFormed_of_plain rfl (by simp) (by simp)
    · exact Token.wellFormed_of_plain rfl (by simp) (by simp)
    · exact Token.wellFormed_of_plain rfl (by simp) (by simp)
    · unfold wordKind
      cases hword : Kind.ofReserved? (String.ofList (cs.take (nameLength cs))) with
      | none => exact Token.wellFormed_of_plain rfl (by simp) (by simp)
      | some kind => exact Token.wellFormed_of_spelling (spelling_of_ofReserved? hword)
    · exact Token.wellFormed_of_plain rfl (by simp) (by simp)
  · rcases List.mem_map.mp hmark with ⟨mark, _, hpair⟩
    cases hpair
    apply Token.wellFormed_of_spelling
    simp only [take_markLength hwidth, String.ofList_toList]
    rfl

theorem width_pos {signed : Bool} {cs : List Char} {kind : Kind} {width : Nat}
    (h : head? signed cs = some (kind, width)) : 0 < width := (mem_of_longest h).2

/-!
## All items of a text
-/

def Regular : Item -> Prop
  | .ok token => token.WellFormed
  | .error diagnostic => exists character, diagnostic.cause = .unrecognised character

theorem step_regular (position : Nat) (last : Option Kind) (c : Char) (cs : List Char) :
    Regular (step position last c cs).item := by
  unfold step
  split
  · rename_i kind width hhead
    exact wellFormed_of_head? hhead _
  · exact ⟨_, rfl⟩

theorem items_regular (position : Nat) (last : Option Kind) (skip : Nat) (cs : List Char) :
    exists body stop, items position last skip cs = body ++ [.ok (Token.endAt stop)] ∧
      forall item, item ∈ body -> Regular item := by
  induction cs generalizing position last skip with
  | nil =>
      exists [], position
      constructor
      · unfold items
        rfl
      · simp
  | cons c cs ih =>
      cases skip with
      | succ skip => exact ih (position + c.utf8Size) last skip
      | zero =>
          unfold items
          split
          · exact ih (position + c.utf8Size) last 0
          · rcases ih (position + c.utf8Size) (step position last c cs).last
                ((step position last c cs).width - 1) with ⟨body, stop, hitems, hbody⟩
            exists (step position last c cs).item :: body, stop
            constructor
            · simp only [hitems, List.cons_append]
            · intro item hitem
              rcases List.mem_cons.mp hitem with hfirst | hrest
              · rw [hfirst]
                exact step_regular position last c cs
              · exact hbody item hrest

end Lexical

/-!
## The tokens of items
-/

namespace Token

def whole : Item -> Token
  | .ok token => token
  | .error diagnostic =>
      let value :=
        match diagnostic.cause with
        | .unrecognised character => character
        | _ => ""
      { kind := .unrecognised, value := value, span := diagnostic.span }

@[simp] theorem kind_ofItem (source : String) (item : Item) :
    (ofItem source item).kind = (whole item).kind := by
  cases item <;> rfl

@[simp] theorem span_ofItem (source : String) (item : Item) :
    (ofItem source item).span = (whole item).span := by
  cases item <;> rfl

/-- Only the text of stray characters is cut down. -/
theorem ofItem_eq_whole {item : Item} (h : (whole item).kind ≠ .unrecognised)
    (source : String) : ofItem source item = whole item := by
  cases item with
  | ok token => rfl
  | error diagnostic => exact absurd rfl h

end Token

theorem Token.wellFormed_whole {item : Item} (h : Lexical.Regular item) :
    (whole item).WellFormed := by
  cases item with
  | ok token => exact h
  | error diagnostic => exact wellFormed_of_plain rfl (by simp [whole]) (by simp [whole])

theorem Token.wellFormed_ofItem {item : Item} (h : Lexical.Regular item) (source : String) :
    (ofItem source item).WellFormed := by
  cases item with
  | ok token => exact h
  | error diagnostic => exact wellFormed_of_plain rfl (by simp [whole]) (by simp [whole])

/-- The tokens of a text are well formed, up to the one behind the text. -/
theorem tokenize_wellFormed (source : String) :
    exists body stop, (tokenize source).1 = body ++ [Token.endAt stop] ∧
      forall t, t ∈ body -> t.WellFormed := by
  rcases Lexical.items_regular 0 none 0 source.toList with ⟨body, stop, hitems, hbody⟩
  exists body.map (Token.ofItem source), stop
  constructor
  · simp [tokenize, itemsOf, hitems, Token.ofItem]
  · intro t ht
    rcases List.mem_map.mp ht with ⟨item, hitem, htoken⟩
    rw [← htoken]
    exact Token.wellFormed_ofItem (hbody item hitem) source

/-!
## The order of tokens
-/

/-- The first token takes up some of the text, and the second stands behind it. -/
structure Token.Before (first second : Token) : Prop where
  nonempty : first.span.start < first.span.stop
  behind : first.span.stop <= second.span.start

namespace Lexical

theorem byteLength_take_le (n : Nat) (cs : List Char) :
    Text.byteLength (cs.take n) <= Text.byteLength cs := by
  have hsplit := congrArg Text.byteLength (List.take_append_drop n cs)
  rw [Text.byteLength_append] at hsplit
  omega

theorem step_width_pos (position : Nat) (last : Option Kind) (c : Char) (cs : List Char) :
    0 < (step position last c cs).width := by
  unfold step
  split
  · rename_i kind width hhead
    exact width_pos hhead
  · exact Nat.one_pos

theorem step_span (position : Nat) (last : Option Kind) (c : Char) (cs : List Char) :
    (Token.whole (step position last c cs).item).span =
      Span.between position
        (position + Text.byteLength ((c :: cs).take (step position last c cs).width)) := by
  unfold step
  split
  · rfl
  · simp [Token.whole]

theorem items_before (source : String) (position : Nat) (last : Option Kind) (skip : Nat)
    (cs : List Char) (hshort : position + Text.byteLength cs <= Span.maxOffset) :
    (forall t, t ∈ (items position last skip cs).map (Token.ofItem source) ->
      position + Text.byteLength (cs.take skip) <= t.span.start ∧ t.span.start <= t.span.stop) ∧
    ((items position last skip cs).map (Token.ofItem source)).Pairwise Token.Before := by
  induction cs generalizing position last skip with
  | nil =>
      have hposition : position <= Span.maxOffset := by simpa using hshort
      unfold items
      simp [Token.ofItem, Token.endAt, Span.between_eq hposition hposition]
  | cons c cs ih =>
      rw [Text.byteLength_cons, ← Nat.add_assoc] at hshort
      cases skip with
      | succ skip =>
          unfold items
          have hrest := ih (position + c.utf8Size) last skip hshort
          rw [List.take_succ_cons, Text.byteLength_cons, ← Nat.add_assoc]
          exact hrest
      | zero =>
          unfold items
          split
          · rcases ih (position + c.utf8Size) last 0 hshort with ⟨hbounds, hpairwise⟩
            refine ⟨fun t ht => ⟨?_, (hbounds t ht).2⟩, hpairwise⟩
            have hstart := (hbounds t ht).1
            simp only [List.take_zero, Text.byteLength_nil] at hstart ⊢
            omega
          · rcases ih (position + c.utf8Size) (step position last c cs).last
                ((step position last c cs).width - 1) hshort with ⟨hbounds, hpairwise⟩
            have hwidth := step_width_pos position last c cs
            have hsize := c.utf8Size_pos
            have htake : Text.byteLength ((c :: cs).take (step position last c cs).width) =
                c.utf8Size + Text.byteLength (cs.take ((step position last c cs).width - 1)) := by
              rw [← Nat.sub_add_cancel hwidth, List.take_succ_cons, Text.byteLength_cons,
                Nat.add_sub_cancel]
            have hle := byteLength_take_le ((step position last c cs).width - 1) cs
            have hspan := step_span position last c cs
            rw [← Token.span_ofItem source] at hspan
            rw [htake, Span.between_eq (by omega) (by omega)] at hspan
            simp only [List.map_cons, List.mem_cons, List.pairwise_cons, List.take_zero,
              Text.byteLength_nil]
            refine ⟨?_, ?_, hpairwise⟩
            · rintro t (rfl | ht)
              · rw [hspan]
                simp only
                omega
              · have hstart := hbounds t ht
                omega
            · intro t ht
              have hstart := (hbounds t ht).1
              constructor
              · rw [hspan]
                simp only
                omega
              · rw [hspan]
                simp only
                omega

end Lexical

theorem tokenize_before {source : String}
    (hshort : Text.byteLength source.toList <= Span.maxOffset) :
    (tokenize source).1.Pairwise Token.Before :=
  (Lexical.items_before source 0 none 0 source.toList (by simpa using hshort)).2

theorem tokenize_forward {source : String}
    (hshort : Text.byteLength source.toList <= Span.maxOffset) {t : Token}
    (ht : t ∈ (tokenize source).1) : t.span.start <= t.span.stop :=
  ((Lexical.items_before source 0 none 0 source.toList (by simpa using hshort)).1 t ht).2

/-!
## Stray characters
-/

/-- Every diagnostic of a stray character stands where its token does. -/
theorem tokenize_stray {source : String} {diagnostic : Diagnostic}
    (h : diagnostic ∈ (tokenize source).2) :
    exists t, t ∈ (tokenize source).1 ∧ t.kind = .unrecognised ∧ t.span = diagnostic.span := by
  rcases List.mem_filterMap.mp h with ⟨item, hitem, hdiagnostic⟩
  cases item with
  | ok token => cases hdiagnostic
  | error found =>
      cases hdiagnostic
      exact ⟨_, List.mem_map.mpr ⟨_, hitem, rfl⟩, rfl, rfl⟩

end Linewise
