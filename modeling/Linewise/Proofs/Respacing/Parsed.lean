import Linewise.Proofs.Joining.File
import Linewise.Proofs.Parallel.Placed
import Linewise.Proofs.Respacing.Places
import Linewise.Proofs.Yield

/-!
# Spaces mean nothing

A text whose tokens are written anew is read into the same tree, and the same is said
about it: nothing hangs on the places of the tokens but the places that are reported.
-/

namespace Linewise

/-!
## Both lists of tokens
-/

/-- The tokens of a text, paired with those of the text in which they are written anew.
In both texts they stand in order. -/
structure Token.Paired (source : String) (pairs : List (Token × Token)) (last : Token × Token) :
    Prop where
  tokens : (tokenize source).1 = pairs.map Prod.fst ++ [last.1]
  tokens' : (tokenize (respace source)).1 = pairs.map Prod.snd ++ [last.2]
  stray : (tokenize source).2 =
    ((pairs.map Prod.fst).filter (fun t => t.kind == .unrecognised)).map Token.complaint
  stray' : (tokenize (respace source)).2 =
    ((pairs.map Prod.snd).filter (fun t => t.kind == .unrecognised)).map Token.complaint
  ends : last.1.kind = .endOfInput
  moves : Token.Moves (pairs ++ [last])

theorem Token.face_endAt (position position' : Nat) :
    (endAt position').face = (endAt position).face := rfl

theorem Token.forward_endAt (position : Nat) :
    (endAt position).span.start <= (endAt position).span.stop := Nat.le_refl _

theorem Lexical.Rereading.moves {source : String} {found found' : List Item}
    (hrun : Run 0 none source.toList found)
    (hreading : Rereading 0 none (respace source).toList found found')
    (hshort : Text.byteLength source.toList <= Span.maxOffset)
    (hshort' : Text.byteLength (respace source).toList <= Span.maxOffset)
    {pairs : List (Token × Token)} (hfst : pairs.map Prod.fst = found.map Token.whole)
    (hsnd : pairs.map Prod.snd = found'.map Token.whole) :
    Token.Moves (pairs ++ [(Token.endAt (Text.byteLength source.toList),
      Token.endAt (Text.byteLength (respace source).toList))]) := by
  apply Token.moves_of_precedes
  · intro pair hpair
    rcases List.mem_append.mp hpair with hpair | hpair
    · have hfaces : pairs.map (Token.face ∘ Prod.snd) = pairs.map (Token.face ∘ Prod.fst) := by
        rw [← List.map_map, ← List.map_map, hfst, hsnd, List.map_map, List.map_map]
        exact hreading.faces
      exact List.map_inj_left.mp hfaces pair hpair
    · rw [List.mem_singleton.mp hpair]
      exact Token.face_endAt _ _
  · have hbefore := tokenize_before hshort
    have hbefore' := tokenize_before hshort'
    rw [hrun.tokenize_whole hshort, ← hfst] at hbefore
    rw [hreading.run.tokenize_whole hshort', ← hsnd] at hbefore'
    apply List.Pairwise.and
    · rw [← List.pairwise_map, List.map_append]
      exact hbefore
    · rw [← List.pairwise_map, List.map_append]
      exact hbefore'
  · exact ⟨Token.forward_endAt _, Token.forward_endAt _⟩
  · intro pair hpair
    have hlast : (found'.map Token.whole).getLast? = some pair.2 := by
      rw [← hsnd, List.getLast?_map, hpair]
      rfl
    rw [List.getLast?_map, Option.map_eq_some_iff] at hlast
    rcases hlast with ⟨item, hitem, htoken⟩
    rw [← htoken, hreading.tight item hitem, Nat.zero_add]
    exact Nat.le_of_eq (Span.stop_between _ _)

theorem exists_paired {source : String}
    (hshort : Text.byteLength source.toList <= Span.maxOffset)
    (hshort' : Text.byteLength (respace source).toList <= Span.maxOffset) :
    exists pairs last, Token.Paired source pairs last := by
  rcases exists_rereading hshort with ⟨found, found', hrun, hreading⟩
  have hlength : (found.map Token.whole).length = (found'.map Token.whole).length := by
    have hlengths := congrArg List.length hreading.faces
    simpa using hlengths.symm
  have hfst := List.map_fst_zip (Nat.le_of_eq hlength)
  have hsnd := List.map_snd_zip (Nat.le_of_eq hlength.symm)
  refine ⟨_, _, ?_, ?_, ?_, ?_, rfl, hreading.moves hrun hshort hshort' hfst hsnd⟩
  · rw [hfst]
    exact hrun.tokenize_whole hshort
  · rw [hsnd]
    exact hreading.run.tokenize_whole hshort'
  · rw [hfst]
    exact hrun.tokenize_eq.2
  · rw [hsnd]
    exact hreading.run.tokenize_eq.2

namespace Token.Paired

variable {source : String} {pairs : List (Token × Token)} {last : Token × Token}

theorem body_eq (h : Paired source pairs last) :
    pairs.map Prod.snd = (pairs.map Prod.fst).map (Token.relabel (.along (pairs ++ [last]))) := by
  rw [List.map_map]
  apply List.map_congr_left
  intro pair hpair
  exact (h.moves.relabel (List.mem_append_left [last] hpair)).symm

theorem last_eq (h : Paired source pairs last) :
    last.2 = last.1.relabel (.along (pairs ++ [last])) :=
  (h.moves.relabel (List.mem_append_right pairs (List.mem_singleton_self last))).symm

theorem faces (h : Paired source pairs last) :
    (tokenize (respace source)).1.map Token.face = (tokenize source).1.map Token.face := by
  rw [h.tokens, h.tokens', h.body_eq, h.last_eq, ← List.map_singleton, ← List.map_append,
    List.map_map]
  rfl

theorem stray_eq (h : Paired source pairs last) :
    (tokenize (respace source)).2 =
      (tokenize source).2.map (Diagnostic.relabel (.along (pairs ++ [last]))) := by
  rw [h.stray, h.stray', h.body_eq, List.filter_map, List.map_map, List.map_map]
  rfl

theorem quoted (h : Paired source pairs last) :
    forall t, t ∈ pairs.map Prod.fst -> t.Quoted := by
  intro t ht
  have hmem : t ∈ (tokenize source).1 := by
    rw [h.tokens]
    exact List.mem_append_left _ ht
  exact (admits_tokenize hmem).2

theorem aligned (h : Paired source pairs last) :
    (Cursor.opening (pairs.map Prod.fst) last.1).Aligned (.along (pairs ++ [last])) []
      ⟨.expecting, [], false⟩ (Cursor.opening (pairs.map Prod.snd) last.2) where
  fits := Cursor.fits_opening h.ends h.quoted
  ahead := h.body_eq
  final := h.last_eq
  depth := rfl
  errors := rfl
  previous := Or.inl ⟨rfl, Or.inl rfl⟩

theorem exists_statements (h : Paired source pairs last) :
    exists found d d',
      Grammar.statements Level.outermost .endOfInput
        (Cursor.opening (pairs.map Prod.fst) last.1) = .ok found d ∧
      Grammar.statements Level.outermost .endOfInput
        (Cursor.opening (pairs.map Prod.snd) last.2) =
          .ok (found.map (Statement.relabel (.along (pairs ++ [last])))) d' ∧
      d'.errors = d.errors.map (Diagnostic.relabel (.along (pairs ++ [last]))) := by
  rcases Grammar.exists_statements h.ends h.quoted with ⟨found, d, hfound⟩
  rcases Grammar.statements_aligned rfl h.aligned hfound with ⟨d', hfound', herrors, _⟩
  exact ⟨found, d, d', hfound, hfound', herrors⟩

theorem kept (h : Paired source pairs last) {found : List Statement} {d : Cursor}
    (hfound : Grammar.statements Level.outermost .endOfInput
      (Cursor.opening (pairs.map Prod.fst) last.1) = .ok found d) :
    Diagnostic.Kept (.along (pairs ++ [last])) ((tokenize source).2 ++ d.errors) := by
  apply h.moves.kept
  have hplace : forall t, t ∈ pairs.map Prod.fst -> exists pair, pair ∈ pairs ++ [last] ∧
      t.span = pair.1.span := by
    intro t ht
    rcases List.mem_map.mp ht with ⟨pair, hpair, rfl⟩
    exact ⟨pair, List.mem_append_left _ hpair, rfl⟩
  intro g hg
  rcases List.mem_append.mp hg with hstray | hnoted
  · rw [h.stray] at hstray
    rcases List.mem_map.mp hstray with ⟨t, ht, rfl⟩
    exact hplace t (List.mem_of_mem_filter ht)
  · have hopening : (Cursor.opening (pairs.map Prod.fst) last.1).Placed
        (fun span => exists pair, pair ∈ pairs ++ [last] ∧ span = pair.1.span) :=
      { fits := Cursor.fits_opening h.ends h.quoted
        ahead := hplace
        final := ⟨last, by simp, rfl⟩
        errors := by
          intro g hg
          cases hg }
    exact (Grammar.statements_placed hopening hfound).errors g hnoted

end Token.Paired

/-!
## Trees and messages
-/

/-- A text with its tokens written anew, one blank between neighbours and nothing in front
of a line break, has the same tokens.  It is read into a file that is written the same, and
the same messages are given about it, in the same order. -/
theorem parse_respace (source : String)
    (hshort : Text.byteLength source.toList < 4294967296)
    (hshort' : Text.byteLength (respace source).toList < 4294967296) :
    (tokenize (respace source)).1.map (fun t => (t.kind, t.value)) =
        (tokenize source).1.map (fun t => (t.kind, t.value)) ∧
      exists parsed parsed', parse source = .ok parsed ∧ parse (respace source) = .ok parsed' ∧
        parsed'.file.render = parsed.file.render ∧
        parsed'.errors.map (fun g => g.cause.message) =
          parsed.errors.map (fun g => g.cause.message) := by
  rcases exists_paired (Nat.le_of_lt_succ hshort) (Nat.le_of_lt_succ hshort') with
    ⟨pairs, last, hpaired⟩
  refine ⟨hpaired.faces, ?_⟩
  rcases hpaired.exists_statements with ⟨found, d, d', hfound, hfound', herrors⟩
  have hends : last.2.kind = .endOfInput := by
    rw [hpaired.last_eq]
    exact hpaired.ends
  rcases Grammar.parseTokens_of_statements hpaired.ends hfound with
    ⟨parsed, hparsed, hstatements, hnoted⟩
  rcases Grammar.parseTokens_of_statements hends hfound' with
    ⟨parsed', hparsed', hstatements', hnoted'⟩
  rw [← hpaired.tokens] at hparsed
  rw [← hpaired.tokens'] at hparsed'
  refine ⟨_, _, parse_eq hparsed, parse_eq hparsed', ?_, ?_⟩
  · have hkept : (Relabelling.along (pairs ++ [last])).commented = true := rfl
    apply SourceFile.render_relabel hkept
    rw [hstatements', hstatements]
  · dsimp only
    rw [hnoted', hnoted, herrors, hpaired.stray_eq,
      mergeErrors_relabel (hpaired.kept hfound), List.map_map]
    rfl

/-- In `x:-1+2 --c`, a blank line and `"y` the sign stays with its number, and the quote
stays stray. -/
theorem parse_respace_sign :
    respace "x:-1+2  --c\n \n\"y" = "x : -1 + 2 --c\n \n \" y" ∧
      exists parsed parsed', parse "x:-1+2  --c\n \n\"y" = .ok parsed ∧
        parse "x : -1 + 2 --c\n \n \" y" = .ok parsed' ∧
        parsed'.file.render = parsed.file.render ∧
        parsed'.errors.map (fun g => g.cause.message) =
          parsed.errors.map (fun g => g.cause.message) ∧
        parsed.errors.length = 1 := by
  have hrespace : respace "x:-1+2  --c\n \n\"y" = "x : -1 + 2 --c\n \n \" y" := by
    decide +kernel
  have hshort : Text.byteLength "x:-1+2  --c\n \n\"y".toList < 4294967296 := by
    decide +kernel
  have hshort' : Text.byteLength (respace "x:-1+2  --c\n \n\"y").toList < 4294967296 := by
    rw [hrespace]
    decide +kernel
  rcases parse_respace "x:-1+2  --c\n \n\"y" hshort hshort' with
    ⟨_, parsed, parsed', hparsed, hparsed', hrender, hmessages⟩
  have hcount : (parse "x:-1+2  --c\n \n\"y").toOption.map (fun parsed =>
      parsed.errors.length) = some 1 := by
    decide +kernel
  rw [hparsed] at hcount
  rw [hrespace] at hparsed'
  exact ⟨hrespace, parsed, parsed', hparsed, hparsed', hrender, hmessages,
    Option.some.inj hcount⟩

end Linewise
