import Linewise.Grammar.Level
import Linewise.Proofs.Bracket
import Linewise.Proofs.Passage

/-!
# Accounts of a reading

An account relates what a parser read and noted to the script of what it built.
What has to be shown of an account is small: how it treats single tokens, that it
survives putting two readings one behind the other, and that a pair of
parentheses may be dropped from a script.  Every parser made from the
combinators then keeps the account, never meets a fault, and reports its
diagnostics at the token it stopped at.
-/

namespace Linewise

namespace Reply

/-- Whether a reply is as asked for.  A fault never is. -/
def Satisfies {α : Type} (ok : α -> Cursor -> Prop) (error : Diagnostic -> Cursor -> Prop) :
    Reply α -> Prop
  | .ok value cursor => ok value cursor
  | .error diagnostic cursor => error diagnostic cursor
  | .fault _ => False

theorem satisfies_ok {α : Type} (ok : α -> Cursor -> Prop) (error : Diagnostic -> Cursor -> Prop)
    (value : α) (d : Cursor) : (Reply.ok value d).Satisfies ok error = ok value d := rfl

theorem Satisfies.mono {α : Type} {ok ok' : α -> Cursor -> Prop}
    {error error' : Diagnostic -> Cursor -> Prop} {reply : Reply α}
    (h : reply.Satisfies ok error) (hok : forall value d, ok value d -> ok' value d)
    (herror : forall diagnostic d, error diagnostic d -> error' diagnostic d) :
    reply.Satisfies ok' error' := by
  cases reply with
  | ok value d => exact hok value d h
  | error diagnostic d => exact herror diagnostic d h
  | fault found => exact h

end Reply

theorem Parser.satisfies_bind {α β : Type} {first : Parser α} {next : α -> Parser β}
    {ok : β -> Cursor -> Prop} {error : Diagnostic -> Cursor -> Prop} {c : Cursor}
    (h : (first c).Satisfies (fun value d => (next value d).Satisfies ok error) error) :
    ((first >>= next) c).Satisfies ok error := by
  rw [Parser.bind_apply]
  cases hfirst : first c with
  | ok value d =>
      rw [hfirst] at h
      exact h
  | error diagnostic d =>
      rw [hfirst] at h
      exact h
  | fault found =>
      rw [hfirst] at h
      exact h

/-- A sequence succeeds exactly if both of its parsers do. -/
theorem Parser.bind_eq_ok {α β : Type} {first : Parser α} {next : α -> Parser β} {c e : Cursor}
    {result : β} :
    (first >>= next) c = .ok result e <->
      exists value d, first c = .ok value d ∧ next value d = .ok result e := by
  rw [Parser.bind_apply]
  constructor
  · intro h
    cases hfirst : first c with
    | ok value d =>
        rw [hfirst] at h
        exact ⟨value, d, rfl, h⟩
    | error diagnostic d =>
        rw [hfirst] at h
        cases h
    | fault found =>
        rw [hfirst] at h
        cases h
  · rintro ⟨value, d, hfirst, hnext⟩
    rw [hfirst]
    exact hnext

/-- What is read one level further in is read, and only the levels are counted
differently. -/
theorem Parser.nested_eq_ok {α : Type} {parser : Parser α} {c d : Cursor} {value : α}
    (h : nested parser c = .ok value d) :
    exists e depth, parser { c with depth := c.depth + 1 } = .ok value e ∧
      d = { e with depth := depth } := by
  unfold nested at h
  split at h
  · cases hparser : parser { c with depth := c.depth + 1 } with
    | ok found e =>
        rw [hparser, closeLevel] at h
        split at h
        · cases h
        · cases h
          exact ⟨e, _, rfl, rfl⟩
    | error diagnostic e =>
        rw [hparser, closeLevel] at h
        split at h <;> cases h
    | fault found =>
        rw [hparser] at h
        cases h
  · cases h

namespace Kind

/-- The kinds of tokens that leave nothing in a script. -/
def isSilent : Kind -> Bool
  | .comment => true
  | .lineBreak => true
  | .mark .semicolon => true
  | .mark .comma => true
  | _ => false

/-- The kinds of tokens that the grammar may ask for. -/
def isWord : Kind -> Bool
  | .endOfInput => false
  | .unrecognised => false
  | _ => true

theorem ne_end_of_isWord {kind : Kind} (h : kind.isWord = true) : kind ≠ .endOfInput := by
  intro hend
  rw [hend] at h
  cases h

/-- The symbol of a token of this kind.  Where a kind has one spelling only, the
text of the token does not matter. -/
def symbol (kind : Kind) (value : String) : Symbol := .word kind (kind.spelling?.getD value)

end Kind

theorem Bracket.plain_of_isSilent {kind : Kind} (h : kind.isSilent = true) :
    plain kind = true := by
  cases kind with
  | mark found => cases found <;> first | rfl | cases h
  | _ => rfl

theorem Bracket.unwind_trivia {read : List Token}
    (h : forall t, t ∈ read -> Cursor.isTrivia t = true) (stack : List Bracket) :
    unwind stack (read.map Token.kind) = some stack := by
  apply unwind_plain
  intro kind hkind
  rcases List.mem_map.mp hkind with ⟨t, ht, htkind⟩
  have htrivia := h t ht
  simp only [Cursor.isTrivia, Token.isComment, Token.isLineBreak, Bool.or_eq_true,
    beq_iff_eq] at htrivia
  rw [← htkind]
  rcases htrivia with hcomment | hbreak
  · rw [hcomment]
    rfl
  · rw [hbreak]
    rfl

namespace Token

def symbol (token : Token) : Symbol := token.kind.symbol token.value

/-- A text token has a quote at each end. -/
def Quoted (token : Token) : Prop :=
  token.kind = .text -> exists value, token.value = Symbol.quoted value

end Token

/-- A relation between the tokens read, the tokens ahead, the diagnostics noted and
the script, for tokens of a certain form with a certain token behind them. -/
structure Account where
  Admits : Token -> Prop
  Ends : Token -> Prop
  Holds : List Token -> List Token -> List Diagnostic -> List Symbol -> Prop
  /-- What is known where a parser fails: of the tokens it read, the token it stopped
  at, the diagnostics noted before, and its own. -/
  Fails : List Token -> Token -> List Diagnostic -> Diagnostic -> Prop := fun _ _ _ _ => True
  quoted : forall {token}, Admits token -> token.Quoted
  ends : forall {token}, Ends token -> token.kind = .endOfInput
  nil : forall rest, Holds [] rest [] []
  append : forall {read read' rest noted noted' script script'},
    Holds read (read' ++ rest) noted script -> Holds read' rest noted' script' ->
      Holds (read ++ read') rest (noted ++ noted') (script ++ script')
  silent : forall {token} rest, token.kind.isSilent = true -> Holds [token] rest [] []
  word : forall {token} rest, Admits token -> token.kind.isWord = true ->
    Holds [token] rest [] [token.symbol]
  group : forall {read rest noted before inner}, Symbol.Balanced inner ->
    Holds read rest noted (before ++ .mark .openParen :: (inner ++ [.mark .closeParen])) ->
      Holds read rest noted (before ++ inner)
  stops : forall token cause, Fails [] token [] { cause := cause, span := token.span } := by
    intros
    trivial
  behind : forall {read read' rest noted noted' script token diagnostic},
    Holds read (read' ++ rest) noted script -> Fails read' token noted' diagnostic ->
      Fails (read ++ read') token (noted ++ noted') diagnostic := by
    intros
    trivial

namespace Account

variable {α β : Type} {A : Account}

/-- The cursor stands in front of tokens that the account is about. -/
structure Fits (A : Account) (c : Cursor) : Prop where
  tokens : forall t, t ∈ c.ahead -> A.Admits t
  ends : A.Ends c.final

theorem Fits.final {c : Cursor} (h : A.Fits c) : c.final.kind = .endOfInput := A.ends h.ends

theorem Fits.after {c d : Cursor} {read : List Token} {noted : List Diagnostic}
    (h : A.Fits c) (passage : c.Passage read noted d) : A.Fits d where
  tokens := by
    intro t ht
    apply h.tokens
    rw [passage.ahead]
    exact List.mem_append_right read ht
  ends := by
    rw [passage.final]
    exact h.ends

/-- From a cursor as in `pre`, and behind tokens with the script `before`, the
parser reads at least `least` tokens; with them the script is that of its value.
It may also fail, at the token it stopped at, and then it is known how. -/
def Tells (A : Account) (least : Nat) (pre : Cursor -> Prop) (before : List Symbol)
    (parser : Parser α) (told : α -> List Symbol) : Prop :=
  forall c, A.Fits c -> pre c -> (parser c).Satisfies
    (fun value d => exists read noted, c.Passage read noted d ∧ least <= read.length ∧
      forall read' noted', A.Holds read' (read ++ d.ahead) noted' before ->
        A.Holds (read' ++ read) d.ahead (noted' ++ noted) (told value))
    (fun diagnostic d => exists read noted, c.Passage read noted d ∧
      diagnostic.span = d.current.span ∧
      forall read' noted', A.Holds read' (read ++ d.ahead) noted' before ->
        A.Fails (read' ++ read) d.current (noted' ++ noted) diagnostic)

/-- From a cursor as in `pre` the parser reads at least `least` tokens, which have
the script of its value. -/
def ReadsIf (A : Account) (least : Nat) (pre : Cursor -> Prop) (parser : Parser α)
    (script : α -> List Symbol) : Prop := A.Tells least pre [] parser script

/-- From everywhere the parser reads at least `least` tokens, which have the script
of its value. -/
def Reads (A : Account) (least : Nat) (parser : Parser α) (script : α -> List Symbol) : Prop :=
  A.ReadsIf least (fun _ => True) parser script

/-!
## Rules for parsers in sequence
-/

theorem Reads.readsIf {least : Nat} {pre : Cursor -> Prop} {parser : Parser α}
    {script : α -> List Symbol} (h : A.Reads least parser script) :
    A.ReadsIf least pre parser script := fun c hc _ => h c hc trivial

theorem Tells.weaken {least : Nat} {pre : Cursor -> Prop} {before : List Symbol}
    {parser : Parser α} {told : α -> List Symbol} (h : A.Tells least pre before parser told) :
    A.Tells 0 pre before parser told := by
  intro c hc hpre
  refine (h c hc hpre).mono ?_ (fun _ _ held => held)
  rintro value d ⟨read, noted, passage, _, hholds⟩
  exact ⟨read, noted, passage, Nat.zero_le _, hholds⟩

theorem Tells.seq {least more : Nat} {pre : Cursor -> Prop} {before : List Symbol}
    {first : Parser α} {next : α -> Parser β} {middle : α -> List Symbol}
    {told : β -> List Symbol} (post : α -> Cursor -> Prop)
    (hfirst : A.Tells least pre before first middle)
    (hpost : forall {c value d read noted}, pre c -> first c = .ok value d ->
      Cursor.Passage c read noted d -> least <= read.length -> post value d)
    (hnext : forall value, A.Tells more (post value) (middle value) (next value) told) :
    A.Tells (least + more) pre before (first >>= next) told := by
  intro c hc hpre
  apply Parser.satisfies_bind
  have hreply := hfirst c hc hpre
  cases hvalue : first c with
  | fault found =>
      rw [hvalue] at hreply
      exact hreply
  | error diagnostic d =>
      rw [hvalue] at hreply
      exact hreply
  | ok value d =>
      rw [hvalue] at hreply
      rcases hreply with ⟨read, noted, passage, hleast, hholds⟩
      refine (hnext value d (hc.after passage) (hpost hpre hvalue passage hleast)).mono ?_ ?_
      · rintro result e ⟨read', noted', passage', hmore, hholds'⟩
        exists _, _, passage.trans passage'
        constructor
        · rw [List.length_append]
          exact Nat.add_le_add hleast hmore
        · intro earlier notedEarlier hbefore
          rw [List.append_assoc, ← passage'.ahead] at hbefore
          have hmiddle := hholds _ _ hbefore
          rw [passage'.ahead] at hmiddle
          simpa only [List.append_assoc] using hholds' _ _ hmiddle
      · rintro diagnostic e ⟨read', noted', passage', hspan, hfails⟩
        refine ⟨_, _, passage.trans passage', hspan, ?_⟩
        intro earlier notedEarlier hbefore
        rw [List.append_assoc, ← passage'.ahead] at hbefore
        have hmiddle := hholds _ _ hbefore
        rw [passage'.ahead] at hmiddle
        simpa only [List.append_assoc] using hfails _ _ hmiddle

theorem ReadsIf.behind {least : Nat} {pre : Cursor -> Prop} {parser : Parser α}
    {script : α -> List Symbol} (h : A.ReadsIf least pre parser script)
    (before : List Symbol) :
    A.Tells least pre before parser (fun value => before ++ script value) := by
  intro c hc hpre
  refine (h c hc hpre).mono ?_ ?_
  · rintro value d ⟨read, noted, passage, hleast, hholds⟩
    refine ⟨read, noted, passage, hleast, ?_⟩
    intro earlier notedEarlier hbefore
    exact A.append hbefore (hholds [] [] (A.nil _))
  · rintro diagnostic d ⟨read, noted, passage, hspan, hfails⟩
    refine ⟨read, noted, passage, hspan, ?_⟩
    intro earlier notedEarlier hbefore
    exact A.behind hbefore (hfails [] [] (A.nil _))

theorem Tells.bindThen {least : Nat} {pre : Cursor -> Prop} {before : List Symbol}
    {first : Parser α} {next : α -> Parser β} {script : α -> List Symbol}
    {told : β -> List Symbol} (post : α -> Cursor -> Prop)
    (hfirst : A.ReadsIf least pre first script)
    (hpost : forall {c value d read noted}, pre c -> first c = .ok value d ->
      Cursor.Passage c read noted d -> least <= read.length -> post value d)
    (hnext : forall value, A.Tells 0 (post value) (before ++ script value) (next value) told) :
    A.Tells least pre before (first >>= next) told :=
  Tells.seq post (hfirst.behind before) hpost hnext

theorem Tells.bindIf {least : Nat} {pre : Cursor -> Prop} {before : List Symbol}
    {first : Parser α} {next : α -> Parser β} {script : α -> List Symbol}
    {told : β -> List Symbol} (hfirst : A.ReadsIf least pre first script)
    (hnext : forall value,
      A.Tells 0 (fun _ => True) (before ++ script value) (next value) told) :
    A.Tells least pre before (first >>= next) told :=
  Tells.bindThen (fun _ _ => True) hfirst (fun _ _ _ _ => trivial) hnext

theorem Tells.bind {least : Nat} {pre : Cursor -> Prop} {before : List Symbol}
    {first : Parser α} {next : α -> Parser β} {script : α -> List Symbol}
    {told : β -> List Symbol} (hfirst : A.Reads least first script)
    (hnext : forall value,
      A.Tells 0 (fun _ => True) (before ++ script value) (next value) told) :
    A.Tells least pre before (first >>= next) told := Tells.bindIf hfirst.readsIf hnext

theorem Tells.follow {least : Nat} {pre : Cursor -> Prop} {before : List Symbol}
    {first : Parser α} {next : α -> Parser β} {middle : α -> List Symbol}
    {told : β -> List Symbol} (hfirst : A.Tells least pre before first middle)
    (hnext : forall value, A.Tells 0 (fun _ => True) (middle value) (next value) told) :
    A.Tells least pre before (first >>= next) told :=
  Tells.seq (fun _ _ => True) hfirst (fun _ _ _ _ => trivial) hnext

theorem Tells.step {least : Nat} {pre : Cursor -> Prop} {before : List Symbol}
    {first : Parser α} {next : α -> Parser β} {script : α -> List Symbol}
    {told : β -> List Symbol} (hfirst : A.Reads least first script)
    (hnext : forall value,
      A.Tells 0 (fun _ => True) (before ++ script value) (next value) told) :
    A.Tells 0 pre before (first >>= next) told := (Tells.bind hfirst hnext).weaken

theorem Tells.stepIf {least : Nat} {pre : Cursor -> Prop} {before : List Symbol}
    {first : Parser α} {next : α -> Parser β} {script : α -> List Symbol}
    {told : β -> List Symbol} (hfirst : A.ReadsIf least pre first script)
    (hnext : forall value,
      A.Tells 0 (fun _ => True) (before ++ script value) (next value) told) :
    A.Tells 0 pre before (first >>= next) told := (Tells.bindIf hfirst hnext).weaken

theorem Tells.lead {least : Nat} {pre : Cursor -> Prop} {before : List Symbol}
    {first : Parser α} {next : α -> Parser β} {script : α -> List Symbol}
    {told : β -> List Symbol} (hfirst : A.Reads 0 first script)
    (hnext : forall value,
      A.Tells least (fun _ => True) (before ++ script value) (next value) told) :
    A.Tells least pre before (first >>= next) told := by
  have hif : A.ReadsIf 0 pre first script := hfirst.readsIf
  have hseq := Tells.seq (fun _ _ => True) (hif.behind before) (fun _ _ _ _ => trivial) hnext
  rwa [Nat.zero_add] at hseq

theorem Tells.pure {pre : Cursor -> Prop} {before : List Symbol} {value : α}
    {told : α -> List Symbol} (h : before = told value) :
    A.Tells 0 pre before (pure value) told := by
  intro c _ _
  refine ⟨[], [], Cursor.Passage.refl c, Nat.le_refl 0, ?_⟩
  intro read noted hbefore
  simpa [h] using hbefore

theorem Tells.look {least : Nat} {pre : Cursor -> Prop} {before : List Symbol}
    {view : Cursor -> α} {next : α -> Parser β} {told : β -> List Symbol}
    (h : forall seen, A.Tells least (fun c => pre c ∧ view c = seen) before (next seen) told) :
    A.Tells least pre before (Parser.look view >>= next) told :=
  fun c hc hpre => h (view c) c hc ⟨hpre, rfl⟩

theorem Tells.given {least : Nat} {fact : Prop} {before : List Symbol}
    {parser : Parser α} {told : α -> List Symbol}
    (h : fact -> A.Tells least (fun _ => True) before parser told) :
    A.Tells least (fun _ => fact) before parser told :=
  fun c hc hfact => h hfact c hc trivial

theorem Tells.last {least : Nat} {pre : Cursor -> Prop} {before : List Symbol}
    {parser : Parser α} {script told : α -> List Symbol} (h : A.Reads least parser script)
    (htold : forall value, before ++ script value = told value) :
    A.Tells least pre before parser told := by
  have hif : A.ReadsIf least pre parser script := h.readsIf
  simpa only [htold] using hif.behind before

theorem Tells.finish {least : Nat} {pre : Cursor -> Prop} {before : List Symbol}
    {parser : Parser α} {script told : α -> List Symbol} (h : A.Reads least parser script)
    (htold : forall value, before ++ script value = told value) :
    A.Tells 0 pre before parser told := (Tells.last h htold).weaken

theorem Tells.restate {least : Nat} {pre : Cursor -> Prop} {before before' : List Symbol}
    {parser : Parser α} {told : α -> List Symbol}
    (h : A.Tells least pre before' parser told)
    (hbefore : forall {read rest noted},
      A.Holds read rest noted before -> A.Holds read rest noted before') :
    A.Tells least pre before parser told := by
  intro c hc hpre
  refine (h c hc hpre).mono ?_ ?_
  · rintro value d ⟨read, noted, passage, hleast, hholds⟩
    exact ⟨read, noted, passage, hleast, fun _ _ held => hholds _ _ (hbefore held)⟩
  · rintro diagnostic d ⟨read, noted, passage, hspan, hfails⟩
    exact ⟨read, noted, passage, hspan, fun _ _ held => hfails _ _ (hbefore held)⟩

/-- A pair of parentheses around a balanced script is dropped. -/
theorem Tells.ungroup {pre : Cursor -> Prop} {inner before' : List Symbol}
    (before : List Symbol) {parser : Parser α} {told : α -> List Symbol}
    (hinner : Symbol.Balanced inner)
    (hbefore' : before' = before ++ .mark .openParen :: (inner ++ [.mark .closeParen]))
    (h : A.Tells 0 pre (before ++ inner) parser told) : A.Tells 0 pre before' parser told := by
  apply h.restate
  intro read rest noted held
  rw [hbefore'] at held
  exact A.group hinner held

theorem Tells.refuse {least : Nat} {pre : Cursor -> Prop} {before : List Symbol}
    {parser : Parser α} {told : α -> List Symbol}
    (h : forall c, exists cause,
      parser c = .error { cause := cause, span := c.current.span } c) :
    A.Tells least pre before parser told := by
  intro c _ _
  rcases h c with ⟨cause, hcause⟩
  rw [hcause]
  refine ⟨[], [], Cursor.Passage.refl c, rfl, ?_⟩
  intro read noted hbefore
  exact A.behind hbefore (A.stops _ _)

theorem Tells.unexpected {least : Nat} {pre : Cursor -> Prop} {before : List Symbol}
    {told : α -> List Symbol} (expected : String) :
    A.Tells least pre before (Parser.unexpected expected) told :=
  Tells.refuse (fun _ => ⟨_, rfl⟩)

theorem Tells.mixedSeparators {least : Nat} {pre : Cursor -> Prop} {before : List Symbol}
    {told : α -> List Symbol} (construct : String) :
    A.Tells least pre before (Parser.mixedSeparators construct) told :=
  Tells.refuse (fun _ => ⟨_, rfl⟩)

theorem Reads.tooDeep {least : Nat} {script : α -> List Symbol} :
    A.Reads least (Parser.tooDeep : Parser α) script := Tells.refuse (fun _ => ⟨_, rfl⟩)

theorem Reads.map {f : α -> β} {least : Nat} {parser : Parser α} {script : α -> List Symbol}
    {script' : β -> List Symbol} (h : A.Reads least parser script)
    (hf : forall value, script value = script' (f value)) :
    A.Reads least (f <$> parser) script' :=
  Tells.bind h (fun value => Tells.pure (hf value))

theorem Reads.omitted (script : α -> List Symbol) :
    A.Reads 0 (pure none) (optionScript script) := Tells.pure rfl

end Account
end Linewise
