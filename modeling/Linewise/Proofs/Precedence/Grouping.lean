import Linewise.Proofs.Account

/-!
# The grouping of operators

A chain is an operand with operators and operands behind it.  How it is to be grouped
can be said without a parser: it is split at the operator that binds least, and the two
sides are grouped in the same way.  Of several operators that bind equally, the last is
taken if they group to the left, and the first if they group to the right.  Every chain
has exactly one grouping.
-/

namespace Linewise

theorem Operator.associativity_eq {a b : Operator} (h : a.precedence = b.precedence) :
    a.associativity = b.associativity := by
  cases a <;> cases b <;> first | rfl | cases h

theorem Operator.precedence_le_rightPrecedence (operator : Operator) :
    operator.precedence <= operator.rightPrecedence := by
  unfold rightPrecedence
  split <;> omega

/-!
## Operands and chains
-/

namespace Token

def atomKinds : List Kind :=
  [.mark .underscore, .lowercaseName, .capitalName, .number, .text]

structure IsAtom (token : Token) : Prop where
  kind : token.kind ∈ atomKinds
  quoted : token.Quoted

def inner (token : Token) : Lexeme :=
  { value := String.ofList token.value.toList.tail.dropLast, span := token.span }

def atom (token : Token) : Expression :=
  match token.kind with
  | .mark _ => .placeholder token.span
  | .lowercaseName => .variable token.toLexeme
  | .capitalName => .typeName token.toLexeme
  | .number => .number token.toLexeme
  | _ => .text token.inner

end Token

/-- An operand of single tokens.  A word that is spelled like an operator may only come
first. -/
structure Term where
  head : Token
  inputs : List Token
  head_isAtom : head.IsAtom
  inputs_isAtom : forall t, t ∈ inputs -> t.IsAtom
  inputs_plain : forall t, t ∈ inputs -> t.isOperatorWord = false

namespace Term

def tokens (term : Term) : List Token := term.head :: term.inputs

def last (term : Term) : Token := term.inputs.getLastD term.head

def expression (term : Term) : Expression :=
  let span := term.head.span.cover term.last.span
  if term.inputs = [] then
    term.head.atom
  else if term.head.kind = .text then
    .formattedText term.head.inner (term.inputs.map Token.atom) span
  else
    .call term.head.atom (term.inputs.map Token.atom) span

end Term

/-- An operator between expressions with the operand behind it. -/
structure Link where
  sign : Token
  operator : Operator
  term : Term
  spelled : sign.operator? = some operator
  right : operator.right = .expression

namespace Link

def tokens (link : Link) : List Token := link.sign :: link.term.tokens

def precedence (link : Link) : Nat := link.operator.precedence

end Link

namespace Chain

def tokens (first : Term) (links : List Link) : List Token :=
  first.tokens ++ links.flatMap Link.tokens

def last (first : Term) : List Link -> Token
  | [] => first.last
  | link :: rest => last link.term rest

theorem last_append (first : Term) (before : List Link) (link : Link) (behind : List Link) :
    last first (before ++ link :: behind) = last link.term behind := by
  induction before generalizing first with
  | nil => rfl
  | cons found before ih => exact ih found.term

/-!
## Where a chain is split
-/

/-- The operator of the link binds least; no later one binds equally if it groups to the
left, and no earlier one if it groups to the right. -/
structure Splits (before : List Link) (link : Link) (behind : List Link) : Prop where
  lowest : forall other, other ∈ before ++ behind -> link.precedence <= other.precedence
  rightmost : link.operator.associativity = .left ->
    forall other, other ∈ behind -> link.precedence < other.precedence
  leftmost : link.operator.associativity = .right ->
    forall other, other ∈ before -> link.precedence < other.precedence

theorem Splits.single (link : Link) : Splits [] link [] where
  lowest := by simp
  rightmost := by simp
  leftmost := by simp

theorem Splits.here {link found : Link} {before behind : List Link}
    (h : Splits before found behind)
    (hlink : link.precedence < found.precedence ∨
      link.precedence = found.precedence ∧ link.operator.associativity = .right) :
    Splits [] link (before ++ found :: behind) := by
  have hfound : link.precedence <= found.precedence := by omega
  have hlowest : forall other, other ∈ before ++ found :: behind ->
      found.precedence <= other.precedence := by
    intro other hother
    rcases List.mem_append.mp hother with hbefore | hrest
    · exact h.lowest other (List.mem_append_left _ hbefore)
    · rcases List.mem_cons.mp hrest with rfl | hbehind
      · exact Nat.le_refl _
      · exact h.lowest other (List.mem_append_right _ hbehind)
  constructor
  · intro other hother
    exact Nat.le_trans hfound (hlowest other hother)
  · intro hleft other hother
    rcases hlink with hless | ⟨_, hright⟩
    · exact Nat.lt_of_lt_of_le hless (hlowest other hother)
    · rw [hleft] at hright
      cases hright
  · simp

theorem Splits.later {link found : Link} {before behind : List Link}
    (h : Splits before found behind) (hless : ¬ link.precedence < found.precedence)
    (hside : ¬ (link.precedence = found.precedence ∧ link.operator.associativity = .right)) :
    Splits (link :: before) found behind where
  lowest := by
    intro other hother
    rcases List.mem_cons.mp hother with rfl | hrest
    · exact Nat.le_of_not_lt hless
    · exact h.lowest other hrest
  rightmost := h.rightmost
  leftmost := by
    intro hright other hother
    rcases List.mem_cons.mp hother with rfl | hbefore
    · have hne : other.precedence ≠ found.precedence := by
        intro heq
        exact hside ⟨heq, (Operator.associativity_eq heq).trans hright⟩
      omega
    · exact h.leftmost hright other hbefore

theorem exists_splits (link : Link) (rest : List Link) :
    exists before found behind, link :: rest = before ++ found :: behind ∧
      Splits before found behind := by
  induction rest generalizing link with
  | nil => exact ⟨[], link, [], rfl, Splits.single link⟩
  | cons next rest ih =>
      rcases ih next with ⟨before, found, behind, hrest, hsplits⟩
      by_cases hlink : link.precedence < found.precedence ∨
          link.precedence = found.precedence ∧ link.operator.associativity = .right
      · exists [], link, before ++ found :: behind
        constructor
        · rw [hrest, List.nil_append]
        · exact hsplits.here hlink
      · rcases not_or.mp hlink with ⟨hless, hside⟩
        exists link :: before, found, behind
        constructor
        · rw [hrest, List.cons_append]
        · exact hsplits.later hless hside

theorem Splits.behind {before behind : List Link} {link : Link} (h : Splits before link [])
    (hbehind : forall other, other ∈ behind ->
      link.operator.rightPrecedence <= other.precedence) : Splits before link behind where
  lowest := by
    intro other hother
    rcases List.mem_append.mp hother with hbefore | hother
    · exact h.lowest other (by simpa using hbefore)
    · exact Nat.le_trans link.operator.precedence_le_rightPrecedence (hbehind other hother)
  rightmost := by
    intro hleft other hother
    have hother := hbehind other hother
    rw [Operator.rightPrecedence, hleft] at hother
    exact hother
  leftmost := h.leftmost

theorem Splits.next {before behind : List Link} {link next : Link} (h : Splits before link behind)
    (hbehind : forall other, other ∈ behind ->
      link.operator.rightPrecedence <= other.precedence)
    (hnext : next.precedence < link.operator.rightPrecedence) :
    Splits (before ++ link :: behind) next [] := by
  have hle : next.precedence <= link.precedence := by
    unfold Operator.rightPrecedence at hnext
    split at hnext
    · exact Nat.le_of_lt_succ hnext
    · exact Nat.le_of_lt hnext
  -- An operator that groups to the right cannot follow one of its own precedence.
  have hlt : next.operator.associativity = .right -> next.precedence < link.precedence := by
    intro hright
    have hne : next.precedence ≠ link.precedence := by
      intro heq
      have hlink : link.operator.associativity = .right :=
        (Operator.associativity_eq heq).symm.trans hright
      rw [Operator.rightPrecedence, hlink] at hnext
      exact Nat.ne_of_lt hnext heq
    omega
  have hcases : forall other, other ∈ before ++ link :: behind ->
      link.precedence <= other.precedence ∨ next.precedence < other.precedence := by
    intro other hother
    rcases List.mem_append.mp hother with hbefore | hrest
    · exact Or.inl (h.lowest other (List.mem_append_left _ hbefore))
    · rcases List.mem_cons.mp hrest with rfl | hother
      · exact Or.inl (Nat.le_refl _)
      · exact Or.inr (Nat.lt_of_lt_of_le hnext (hbehind other hother))
  constructor
  · intro other hother
    rw [List.append_nil] at hother
    have hother := hcases other hother
    omega
  · simp
  · intro hright other hother
    have hother := hcases other hother
    have hlt := hlt hright
    omega

/-- Of two links only one can be where the chain is split. -/
theorem Splits.not_twice {before middle behind : List Link} {link other : Link}
    (hlink : Splits before link (middle ++ other :: behind))
    (hother : Splits (before ++ link :: middle) other behind) : False := by
  have hle : link.precedence <= other.precedence := hlink.lowest other (by simp)
  have hge : other.precedence <= link.precedence := hother.lowest link (by simp)
  have hside := Operator.associativity_eq (Nat.le_antisymm hle hge)
  cases hleft : link.operator.associativity with
  | left =>
      have hlt := hlink.rightmost hleft other (by simp)
      omega
  | right =>
      have hlt := hother.leftmost (hside.symm.trans hleft) link (by simp)
      omega

theorem Splits.unique {before behind before' behind' : List Link} {link link' : Link}
    (h : Splits before link behind) (h' : Splits before' link' behind')
    (heq : before ++ link :: behind = before' ++ link' :: behind') :
    before = before' ∧ link = link' ∧ behind = behind' := by
  rcases List.append_eq_append_iff.mp heq with
    ⟨middle, hbefore, hbehind⟩ | ⟨middle, hbefore, hbehind⟩
  · cases middle with
    | nil =>
        injection hbehind with hhead htail
        exact ⟨by simpa using hbefore.symm, hhead, htail⟩
    | cons found middle =>
        injection hbehind with hhead htail
        subst hhead
        rw [htail] at h
        rw [hbefore] at h'
        exact (h.not_twice h').elim
  · cases middle with
    | nil =>
        injection hbehind with hhead htail
        exact ⟨by simpa using hbefore, hhead.symm, htail.symm⟩
    | cons found middle =>
        injection hbehind with hhead htail
        subst hhead
        rw [htail] at h'
        rw [hbefore] at h
        exact (h'.not_twice h).elim

/-!
## Groupings
-/

/-- The tree of a chain: it is split, and both sides are grouped.  Its span goes from the
first token of the chain to the last. -/
inductive Groups : Term -> List Link -> Expression -> Prop where
  | single (first : Term) : Groups first [] first.expression
  | split {first : Term} {before : List Link} {link : Link} {behind : List Link}
      {left right : Expression} (splits : Splits before link behind)
      (hleft : Groups first before left) (hright : Groups link.term behind right) :
      Groups first (before ++ link :: behind)
        (.binary link.operator left (.expression right)
          (first.head.span.cover (last link.term behind).span))

theorem exists_groups (first : Term) (links : List Link) :
    exists tree, Groups first links tree := by
  generalize hlength : links.length = length
  induction length using Nat.strongRecOn generalizing first links with
  | ind length ih =>
      cases links with
      | nil => exact ⟨first.expression, Groups.single first⟩
      | cons link rest =>
          rcases exists_splits link rest with ⟨before, found, behind, hlinks, hsplits⟩
          have hparts : before.length + (behind.length + 1) = length := by
            rw [← hlength, hlinks, List.length_append, List.length_cons]
          rcases ih before.length (by omega) first before rfl with ⟨left, hleft⟩
          rcases ih behind.length (by omega) found.term behind rfl with ⟨right, hright⟩
          rw [hlinks]
          exact ⟨_, Groups.split hsplits hleft hright⟩

theorem Groups.unique {first : Term} {links : List Link} {tree tree' : Expression}
    (h : Groups first links tree) (h' : Groups first links tree') : tree = tree' := by
  induction h generalizing tree' with
  | single first =>
      generalize hlinks : ([] : List Link) = links at h'
      cases h' with
      | single first => rfl
      | split splits hleft hright => simp at hlinks
  | @split first before link behind left right splits hleft hright ihleft ihright =>
      generalize hlinks : before ++ link :: behind = links at h'
      cases h' with
      | single first => simp at hlinks
      | split splits' hleft' hright' =>
          rcases splits.unique splits' hlinks with ⟨rfl, rfl, rfl⟩
          rw [ihleft hleft', ihright hright']

end Chain

/-!
## Right operands
-/

mutual

/-- The most right operands that lie around one another on a way down the tree. -/
def Expression.rightEdges : Expression -> Nat
  | .binary _ left right _ => max left.rightEdges (right.rightEdges + 1)
  | _ => 0

def Operand.rightEdges : Operand -> Nat
  | .expression expression => expression.rightEdges
  | _ => 0

end

theorem Token.rightEdges_atom (token : Token) : token.atom.rightEdges = 0 := by
  unfold atom
  split <;> rfl

@[simp] theorem Term.rightEdges_expression (term : Term) : term.expression.rightEdges = 0 := by
  unfold expression
  dsimp only
  split
  · exact Token.rightEdges_atom _
  · split <;> rfl

end Linewise
