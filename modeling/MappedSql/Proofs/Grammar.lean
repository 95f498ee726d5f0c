import MappedSql.Expression
import MappedSql.Proofs.Outcomes

/-!
# The grammar of expressions

An expression that is read has exactly one tree of the grammar, and its value is the value of
that tree. A tree has its tokens, which determine it, and a value, which is worked out from the
leaves up and fails only where a comparison does. Precedence and associativity are those of the
tree, so they are the same in all expressions.
-/

namespace MappedSql.Expression

-- ---------------------------------------------------------------------------
-- Trees
-- ---------------------------------------------------------------------------

inductive Literal
  | int (value : Int64)
  | double (value : Double)
  | text (value : String)
  | null
  | boolean (value : Bool)

namespace Literal

def token : Literal → Token
  | int n => .int n
  | double d => .double d
  | text s => .text s
  | null => .null
  | boolean b => .boolean b

def value : Literal → Argument
  | int n => .ofInt n
  | double d => .value (.double d)
  | text s => .ofText s
  | null => .null
  | boolean b => .ofBool b

end Literal

mutual

inductive OrTree
  | mk (first : AndTree) (more : OrMore)

inductive OrMore
  | nil
  | cons (next : AndTree) (more : OrMore)

inductive AndTree
  | mk (first : NotTree) (more : AndMore)

inductive AndMore
  | nil
  | cons (next : NotTree) (more : AndMore)

inductive NotTree
  | not (operand : NotTree)
  | of (operand : ComparisonTree)

inductive ComparisonTree
  | compare (op : Comparison) (left right : PrimaryTree)
  | of (operand : PrimaryTree)

inductive PrimaryTree
  | literal (literal : Literal)
  | path (path : String)
  | group (inner : OrTree)

end

mutual

def OrTree.tokens : OrTree → List Token
  | .mk first more => first.tokens ++ more.tokens

def OrMore.tokens : OrMore → List Token
  | .nil => []
  | .cons next more => .or :: (next.tokens ++ more.tokens)

def AndTree.tokens : AndTree → List Token
  | .mk first more => first.tokens ++ more.tokens

def AndMore.tokens : AndMore → List Token
  | .nil => []
  | .cons next more => .and :: (next.tokens ++ more.tokens)

def NotTree.tokens : NotTree → List Token
  | .not operand => .not :: operand.tokens
  | .of operand => operand.tokens

def ComparisonTree.tokens : ComparisonTree → List Token
  | .compare op left right => left.tokens ++ .compare op :: right.tokens
  | .of operand => operand.tokens

def PrimaryTree.tokens : PrimaryTree → List Token
  | .literal l => [l.token]
  | .path p => [.path p]
  | .group inner => .opening :: (inner.tokens ++ [.closing])

end

mutual

def OrTree.value (b : Bindings) : OrTree → Except Fault Argument
  | .mk first more => do more.value b (← first.value b)

/-- The value of all operands, where `left` is that of the operands before. -/
def OrMore.value (b : Bindings) : OrMore → Argument → Except Fault Argument
  | .nil, left => return left
  | .cons next more, left => do
    let right ← next.value b
    more.value b (.ofBool (left.isTruthy || right.isTruthy))

def AndTree.value (b : Bindings) : AndTree → Except Fault Argument
  | .mk first more => do more.value b (← first.value b)

def AndMore.value (b : Bindings) : AndMore → Argument → Except Fault Argument
  | .nil, left => return left
  | .cons next more, left => do
    let right ← next.value b
    more.value b (.ofBool (left.isTruthy && right.isTruthy))

def NotTree.value (b : Bindings) : NotTree → Except Fault Argument
  | .not operand => do return .ofBool !(← operand.value b).isTruthy
  | .of operand => operand.value b

def ComparisonTree.value (b : Bindings) : ComparisonTree → Except Fault Argument
  | .compare op left right => do
    return .ofBool (← compareBy op (← left.value b) (← right.value b))
  | .of operand => operand.value b

def PrimaryTree.value (b : Bindings) : PrimaryTree → Except Fault Argument
  | .literal l => return l.value
  | .path p => return (Scope.lookup? b p).getD .null
  | .group inner => inner.value b

end

-- ---------------------------------------------------------------------------
-- What may follow a tree
-- ---------------------------------------------------------------------------

/-- How tightly a token joins the operands beside it; zero where it joins none. -/
def Token.rank : Token → Nat
  | .or => 1
  | .and => 2
  | .compare _ => 3
  | _ => 0

/-- The first token joins nothing, or not as tightly as those of a rank. -/
def EndsBelow (rank : Nat) (rest : List Token) : Prop :=
  ∀ token ∈ rest.head?, token.rank < rank

@[simp] theorem endsBelow_nil (rank : Nat) : EndsBelow rank [] :=
  nofun

@[simp] theorem endsBelow_cons {rank : Nat} {token : Token} {rest : List Token} :
    EndsBelow rank (token :: rest) ↔ token.rank < rank := by
  simp [EndsBelow]

theorem EndsBelow.mono {rank rank' : Nat} {rest : List Token} (h : EndsBelow rank rest)
    (hr : rank ≤ rank') : EndsBelow rank' rest :=
  fun token hm => Nat.lt_of_lt_of_le (h token hm) hr

theorem EndsBelow.head_ne {rank : Nat} {token : Token} {rest : List Token}
    (h : EndsBelow rank rest) (hr : rank ≤ token.rank) : rest.head? ≠ some token :=
  fun he => Nat.not_lt.mpr hr (h token he)

theorem OrMore.endsBelow (more : OrMore) {rest : List Token} (h : EndsBelow 1 rest) :
    EndsBelow 2 (more.tokens ++ rest) := by
  cases more with
  | nil => exact h.mono (by decide)
  | cons next more => simp [OrMore.tokens, Token.rank]

theorem OrMore.ends (more : OrMore) : EndsBelow 2 more.tokens := by
  simpa using more.endsBelow (endsBelow_nil 1)

theorem AndMore.endsBelow (more : AndMore) {rest : List Token} (h : EndsBelow 2 rest) :
    EndsBelow 3 (more.tokens ++ rest) := by
  cases more with
  | nil => exact h.mono (by decide)
  | cons next more => simp [AndMore.tokens, Token.rank]

theorem AndMore.ends (more : AndMore) : EndsBelow 3 more.tokens := by
  simpa using more.endsBelow (endsBelow_nil 2)

-- ---------------------------------------------------------------------------
-- Phrases
-- ---------------------------------------------------------------------------

/-- How reading a phrase ends, without the proof that there are fewer tokens after it. -/
def reading {P : List Token → Prop}
    (r : Except Fault (Argument × { rest : List Token // P rest })) :
    Except Fault (Argument × List Token) :=
  r.map fun (value, rest) => (value, rest.1)

section
variable {P Q : List Token → Prop}
  {r : Except Fault (Argument × { rest : List Token // P rest })} {v : Argument}
  {rest : List Token}

theorem reading_ok : reading r = .ok (v, rest) ↔ ∃ h, r = .ok (v, ⟨rest, h⟩) := by
  cases r with
  | error fault => simp [reading, Except.map]
  | ok result =>
    obtain ⟨v', rest', h'⟩ := result
    simp only [reading, Except.map, Except.ok.injEq, Prod.mk.injEq, Subtype.mk.injEq]
    constructor
    · rintro ⟨rfl, rfl⟩
      exact ⟨h', rfl, rfl⟩
    · rintro ⟨-, rfl, rfl⟩
      exact ⟨rfl, rfl⟩

theorem of_reading (h : reading r = .ok (v, rest)) : P rest := by
  obtain ⟨hr, -⟩ := reading_ok.mp h
  exact hr

theorem reading_bind
    {f : Argument × { rest : List Token // P rest } →
      Except Fault (Argument × { rest : List Token // Q rest })}
    {g : Argument × List Token → Except Fault (Argument × List Token)}
    (h : ∀ v rest hr, reading (f (v, ⟨rest, hr⟩)) = g (v, rest)) :
    reading (r >>= f) = reading r >>= g := by
  cases r with
  | error fault => rfl
  | ok result => exact h result.1 result.2.1 result.2.2

theorem reading_return {s : Except Fault (Argument × { rest : List Token // Q rest })}
    {h : ∀ rest, Q rest → P rest} :
    reading (s >>= fun (v, ⟨rest, hr⟩) => (return (v, ⟨rest, h rest hr⟩) :
      Except Fault (Argument × { rest : List Token // P rest }))) = reading s := by
  cases s <;> rfl

end

section
variable (b : Bindings)

theorem reading_orPhrase (ts : List Token) :
    reading (orPhrase b ts) =
      reading (andPhrase b ts) >>= fun (left, rest) => reading (orTail b left rest) := by
  rw [orPhrase]
  exact reading_bind fun left rest h => reading_return

theorem reading_orTail_or (left : Argument) (ts : List Token) :
    reading (orTail b left (.or :: ts)) = reading (andPhrase b ts) >>= fun (right, rest) =>
      reading (orTail b (.ofBool (left.isTruthy || right.isTruthy)) rest) := by
  rw [orTail]
  exact reading_bind fun right rest h => reading_return

theorem reading_orTail_of_ne (left : Argument) {ts : List Token} (h : ts.head? ≠ some .or) :
    reading (orTail b left ts) = .ok (left, ts) := by
  rw [orTail.eq_2]
  · rfl
  · rintro rest rfl
    exact h rfl

theorem reading_andPhrase (ts : List Token) :
    reading (andPhrase b ts) =
      reading (notPhrase b ts) >>= fun (left, rest) => reading (andTail b left rest) := by
  rw [andPhrase]
  exact reading_bind fun left rest h => reading_return

theorem reading_andTail_and (left : Argument) (ts : List Token) :
    reading (andTail b left (.and :: ts)) = reading (notPhrase b ts) >>= fun (right, rest) =>
      reading (andTail b (.ofBool (left.isTruthy && right.isTruthy)) rest) := by
  rw [andTail]
  exact reading_bind fun right rest h => reading_return

theorem reading_andTail_of_ne (left : Argument) {ts : List Token} (h : ts.head? ≠ some .and) :
    reading (andTail b left ts) = .ok (left, ts) := by
  rw [andTail.eq_2]
  · rfl
  · rintro rest rfl
    exact h rfl

theorem reading_notPhrase_not (ts : List Token) :
    reading (notPhrase b (.not :: ts)) = reading (notPhrase b ts) >>= fun (value, rest) =>
      .ok (.ofBool !value.isTruthy, rest) := by
  rw [notPhrase]
  exact reading_bind fun value rest h => rfl

theorem reading_notPhrase_of_ne {ts : List Token} (h : ts.head? ≠ some .not) :
    reading (notPhrase b ts) = reading (comparisonPhrase b ts) := by
  rw [notPhrase.eq_2]
  rintro rest rfl
  exact h rfl

theorem reading_comparisonPhrase (ts : List Token) :
    reading (comparisonPhrase b ts) = reading (primaryPhrase b ts) >>= fun (left, rest) =>
      match rest with
      | .compare op :: rest => reading (primaryPhrase b rest) >>= fun (right, rest) =>
        compareBy op left right >>= fun holds => .ok (.ofBool holds, rest)
      | rest => .ok (left, rest) := by
  rw [comparisonPhrase]
  refine reading_bind fun left rest h => ?_
  rcases rest with _ | ⟨token, rest⟩
  · rfl
  cases token with
  | compare op =>
    refine reading_bind fun right rest h => ?_
    dsimp only
    cases compareBy op left right <;> rfl
  | _ => rfl

theorem reading_primaryPhrase_opening (ts : List Token) :
    reading (primaryPhrase b (.opening :: ts)) = reading (orPhrase b ts) >>= fun (value, rest) =>
      match rest with
      | .closing :: rest => .ok (value, rest)
      | _ => .error .missingParenthesis := by
  rw [primaryPhrase]
  refine reading_bind fun value rest h => ?_
  rcases rest with _ | ⟨token, rest⟩
  · rfl
  cases token <;> rfl

theorem reading_primaryPhrase_of_ne {token : Token} (h : token ≠ .opening) (ts : List Token) :
    reading (primaryPhrase b (token :: ts)) =
      match token.operand? b with
      | some value => .ok (value, ts)
      | none => .error (.unexpectedToken token) := by
  rw [primaryPhrase]
  · cases token.operand? b <;> rfl
  · exact h

end

-- ---------------------------------------------------------------------------
-- Trees are read
-- ---------------------------------------------------------------------------

theorem Literal.operand_token (b : Bindings) (l : Literal) :
    l.token.operand? b = some l.value := by
  cases l <;> rfl

theorem Literal.token_ne_opening (l : Literal) : l.token ≠ .opening := by
  cases l <;> nofun

theorem PrimaryTree.head_ne_not (t : PrimaryTree) (rest : List Token) :
    (t.tokens ++ rest).head? ≠ some .not := by
  cases t with
  | literal l => cases l <;> simp [PrimaryTree.tokens, Literal.token]
  | path p => simp [PrimaryTree.tokens]
  | group inner => simp [PrimaryTree.tokens]

theorem ComparisonTree.head_ne_not (t : ComparisonTree) (rest : List Token) :
    (t.tokens ++ rest).head? ≠ some .not := by
  cases t with
  | compare op left right =>
    rw [ComparisonTree.tokens, List.append_assoc]
    exact left.head_ne_not _
  | of operand => exact operand.head_ne_not _

section
variable (b : Bindings)

-- By induction on the tree. A tree is read whole, and no further, where the token after it does
-- not join as tightly as its own operators do.
mutual

theorem OrTree.reading_tokens (t : OrTree) {rest : List Token} (h : EndsBelow 1 rest) :
    reading (orPhrase b (t.tokens ++ rest)) = (t.value b).map (·, rest) := by
  obtain ⟨first, more⟩ := t
  rw [OrTree.tokens, OrTree.value, List.append_assoc, reading_orPhrase,
    first.reading_tokens (more.endsBelow h)]
  cases first.value b with
  | error fault => rfl
  | ok left => exact more.reading_tokens left h

theorem OrMore.reading_tokens (t : OrMore) (left : Argument) {rest : List Token}
    (h : EndsBelow 1 rest) :
    reading (orTail b left (t.tokens ++ rest)) = (t.value b left).map (·, rest) := by
  cases t with
  | nil => exact reading_orTail_of_ne b left (h.head_ne (Nat.le_refl _))
  | cons next more =>
    rw [OrMore.tokens, OrMore.value, List.cons_append, List.append_assoc, reading_orTail_or,
      next.reading_tokens (more.endsBelow h)]
    cases next.value b with
    | error fault => rfl
    | ok right => exact more.reading_tokens _ h

theorem AndTree.reading_tokens (t : AndTree) {rest : List Token} (h : EndsBelow 2 rest) :
    reading (andPhrase b (t.tokens ++ rest)) = (t.value b).map (·, rest) := by
  obtain ⟨first, more⟩ := t
  rw [AndTree.tokens, AndTree.value, List.append_assoc, reading_andPhrase,
    first.reading_tokens (more.endsBelow h)]
  cases first.value b with
  | error fault => rfl
  | ok left => exact more.reading_tokens left h

theorem AndMore.reading_tokens (t : AndMore) (left : Argument) {rest : List Token}
    (h : EndsBelow 2 rest) :
    reading (andTail b left (t.tokens ++ rest)) = (t.value b left).map (·, rest) := by
  cases t with
  | nil => exact reading_andTail_of_ne b left (h.head_ne (Nat.le_refl _))
  | cons next more =>
    rw [AndMore.tokens, AndMore.value, List.cons_append, List.append_assoc, reading_andTail_and,
      next.reading_tokens (more.endsBelow h)]
    cases next.value b with
    | error fault => rfl
    | ok right => exact more.reading_tokens _ h

theorem NotTree.reading_tokens (t : NotTree) {rest : List Token} (h : EndsBelow 3 rest) :
    reading (notPhrase b (t.tokens ++ rest)) = (t.value b).map (·, rest) := by
  cases t with
  | not operand =>
    rw [NotTree.tokens, NotTree.value, List.cons_append, reading_notPhrase_not,
      operand.reading_tokens h]
    cases operand.value b <;> rfl
  | of operand =>
    rw [NotTree.tokens, NotTree.value, reading_notPhrase_of_ne b (operand.head_ne_not rest)]
    exact operand.reading_tokens h

theorem ComparisonTree.reading_tokens (t : ComparisonTree) {rest : List Token}
    (h : EndsBelow 3 rest) :
    reading (comparisonPhrase b (t.tokens ++ rest)) = (t.value b).map (·, rest) := by
  cases t with
  | compare op left right =>
    rw [ComparisonTree.tokens, ComparisonTree.value, List.append_assoc, List.cons_append,
      reading_comparisonPhrase, left.reading_tokens]
    cases left.value b with
    | error fault => rfl
    | ok l =>
      change reading (primaryPhrase b (right.tokens ++ rest)) >>= _ = _
      rw [right.reading_tokens]
      cases right.value b with
      | error fault => rfl
      | ok r =>
        dsimp only [Except.map, bind, Except.bind]
        cases compareBy op l r <;> rfl
  | of operand =>
    rw [ComparisonTree.tokens, ComparisonTree.value, reading_comparisonPhrase,
      operand.reading_tokens]
    cases operand.value b with
    | error fault => rfl
    | ok value =>
      rcases rest with _ | ⟨token, rest⟩
      · rfl
      cases token with
      | compare op => simp [Token.rank] at h
      | _ => rfl

theorem PrimaryTree.reading_tokens (t : PrimaryTree) (rest : List Token) :
    reading (primaryPhrase b (t.tokens ++ rest)) = (t.value b).map (·, rest) := by
  cases t with
  | literal l =>
    rw [PrimaryTree.tokens, List.singleton_append, reading_primaryPhrase_of_ne b l.token_ne_opening,
      l.operand_token]
    rfl
  | path p =>
    have hne : Token.path p ≠ .opening := nofun
    exact reading_primaryPhrase_of_ne b hne rest
  | group inner =>
    rw [PrimaryTree.tokens, PrimaryTree.value, List.cons_append, List.append_assoc,
      reading_primaryPhrase_opening, inner.reading_tokens (by simp [Token.rank])]
    cases inner.value b <;> rfl

end

theorem tree_of_operand {b : Bindings} {token : Token} {value : Argument}
    (h : token.operand? b = some value) :
    ∃ t : PrimaryTree, t.tokens = [token] ∧ t.value b = .ok value := by
  cases token with
  | path p => exact ⟨.path p, rfl, congrArg _ (Option.some.inj h)⟩
  | int n => exact ⟨.literal (.int n), rfl, congrArg _ (Option.some.inj h)⟩
  | double d => exact ⟨.literal (.double d), rfl, congrArg _ (Option.some.inj h)⟩
  | text s => exact ⟨.literal (.text s), rfl, congrArg _ (Option.some.inj h)⟩
  | null => exact ⟨.literal .null, rfl, congrArg _ (Option.some.inj h)⟩
  | boolean truth => exact ⟨.literal (.boolean truth), rfl, congrArg _ (Option.some.inj h)⟩
  | _ => cases h

-- By induction on the tokens, as they are read.
mutual

theorem orPhrase_reads {ts rest : List Token} {v : Argument}
    (h : reading (orPhrase b ts) = .ok (v, rest)) :
    ∃ t : OrTree, ts = t.tokens ++ rest ∧ t.value b = .ok v := by
  rw [reading_orPhrase] at h
  obtain ⟨⟨left, after⟩, hfirst, hmore⟩ := bind_ok.mp h
  have hlt := of_reading hfirst
  obtain ⟨first, rfl, hl⟩ := andPhrase_reads hfirst
  obtain ⟨more, rfl, hv⟩ := orTail_reads hmore
  exact ⟨.mk first more, by simp [OrTree.tokens], bind_ok.mpr ⟨left, hl, hv⟩⟩
termination_by (ts.length, 5)

theorem orTail_reads {ts rest : List Token} {left v : Argument}
    (h : reading (orTail b left ts) = .ok (v, rest)) :
    ∃ t : OrMore, ts = t.tokens ++ rest ∧ t.value b left = .ok v := by
  by_cases ho : ts.head? = some .or
  · obtain ⟨ts, rfl⟩ := List.head?_eq_some_iff.mp ho
    rw [reading_orTail_or] at h
    obtain ⟨⟨right, after⟩, hnext, hmore⟩ := bind_ok.mp h
    have hlt := of_reading hnext
    obtain ⟨next, rfl, hr⟩ := andPhrase_reads hnext
    obtain ⟨more, rfl, hv⟩ := orTail_reads hmore
    exact ⟨.cons next more, by simp [OrMore.tokens], bind_ok.mpr ⟨right, hr, hv⟩⟩
  · rw [reading_orTail_of_ne b left ho] at h
    cases h
    exact ⟨.nil, rfl, rfl⟩
termination_by (ts.length, 0)

theorem andPhrase_reads {ts rest : List Token} {v : Argument}
    (h : reading (andPhrase b ts) = .ok (v, rest)) :
    ∃ t : AndTree, ts = t.tokens ++ rest ∧ t.value b = .ok v := by
  rw [reading_andPhrase] at h
  obtain ⟨⟨left, after⟩, hfirst, hmore⟩ := bind_ok.mp h
  have hlt := of_reading hfirst
  obtain ⟨first, rfl, hl⟩ := notPhrase_reads hfirst
  obtain ⟨more, rfl, hv⟩ := andTail_reads hmore
  exact ⟨.mk first more, by simp [AndTree.tokens], bind_ok.mpr ⟨left, hl, hv⟩⟩
termination_by (ts.length, 4)

theorem andTail_reads {ts rest : List Token} {left v : Argument}
    (h : reading (andTail b left ts) = .ok (v, rest)) :
    ∃ t : AndMore, ts = t.tokens ++ rest ∧ t.value b left = .ok v := by
  by_cases ha : ts.head? = some .and
  · obtain ⟨ts, rfl⟩ := List.head?_eq_some_iff.mp ha
    rw [reading_andTail_and] at h
    obtain ⟨⟨right, after⟩, hnext, hmore⟩ := bind_ok.mp h
    have hlt := of_reading hnext
    obtain ⟨next, rfl, hr⟩ := notPhrase_reads hnext
    obtain ⟨more, rfl, hv⟩ := andTail_reads hmore
    exact ⟨.cons next more, by simp [AndMore.tokens], bind_ok.mpr ⟨right, hr, hv⟩⟩
  · rw [reading_andTail_of_ne b left ha] at h
    cases h
    exact ⟨.nil, rfl, rfl⟩
termination_by (ts.length, 0)

theorem notPhrase_reads {ts rest : List Token} {v : Argument}
    (h : reading (notPhrase b ts) = .ok (v, rest)) :
    ∃ t : NotTree, ts = t.tokens ++ rest ∧ t.value b = .ok v := by
  by_cases hn : ts.head? = some .not
  · obtain ⟨ts, rfl⟩ := List.head?_eq_some_iff.mp hn
    rw [reading_notPhrase_not] at h
    obtain ⟨⟨value, after⟩, hoperand, hend⟩ := bind_ok.mp h
    cases hend
    obtain ⟨operand, rfl, hv⟩ := notPhrase_reads hoperand
    exact ⟨.not operand, rfl, bind_ok.mpr ⟨value, hv, rfl⟩⟩
  · rw [reading_notPhrase_of_ne b hn] at h
    obtain ⟨operand, rfl, hv⟩ := comparisonPhrase_reads h
    exact ⟨.of operand, rfl, hv⟩
termination_by (ts.length, 3)

theorem comparisonPhrase_reads {ts rest : List Token} {v : Argument}
    (h : reading (comparisonPhrase b ts) = .ok (v, rest)) :
    ∃ t : ComparisonTree, ts = t.tokens ++ rest ∧ t.value b = .ok v := by
  rw [reading_comparisonPhrase] at h
  obtain ⟨⟨l, after⟩, hleft, hright⟩ := bind_ok.mp h
  have hlt := of_reading hleft
  dsimp only at hright
  split at hright
  · rename_i op after
    obtain ⟨⟨r, after'⟩, hprimary, hcompare⟩ := bind_ok.mp hright
    obtain ⟨holds, hc, hend⟩ := bind_ok.mp hcompare
    cases hend
    obtain ⟨left, rfl, hl⟩ := primaryPhrase_reads hleft
    obtain ⟨right, rfl, hr⟩ := primaryPhrase_reads hprimary
    exact ⟨.compare op left right, by simp [ComparisonTree.tokens],
      bind_ok.mpr ⟨l, hl, bind_ok.mpr ⟨r, hr, bind_ok.mpr ⟨holds, hc, rfl⟩⟩⟩⟩
  · cases hright
    obtain ⟨left, rfl, hl⟩ := primaryPhrase_reads hleft
    exact ⟨.of left, rfl, hl⟩
termination_by (ts.length, 2)

theorem primaryPhrase_reads {ts rest : List Token} {v : Argument}
    (h : reading (primaryPhrase b ts) = .ok (v, rest)) :
    ∃ t : PrimaryTree, ts = t.tokens ++ rest ∧ t.value b = .ok v := by
  by_cases ho : ts.head? = some .opening
  · obtain ⟨ts, rfl⟩ := List.head?_eq_some_iff.mp ho
    rw [reading_primaryPhrase_opening] at h
    obtain ⟨⟨value, after⟩, hinner, hclose⟩ := bind_ok.mp h
    dsimp only at hclose
    split at hclose
    · cases hclose
      obtain ⟨inner, rfl, hv⟩ := orPhrase_reads hinner
      exact ⟨.group inner, by simp [PrimaryTree.tokens], hv⟩
    · cases hclose
  · rcases ts with _ | ⟨token, ts⟩
    · rw [primaryPhrase] at h
      cases h
    rw [reading_primaryPhrase_of_ne b fun he => ho (congrArg some he)] at h
    cases hv : token.operand? b with
    | none =>
      rw [hv] at h
      cases h
    | some value =>
      rw [hv] at h
      cases h
      obtain ⟨t, ht, htv⟩ := tree_of_operand hv
      exact ⟨t, by rw [ht]; rfl, htv⟩
termination_by (ts.length, 1)

end

end

-- ---------------------------------------------------------------------------
-- Tokens determine their tree
-- ---------------------------------------------------------------------------

theorem Literal.token_inj {l l' : Literal} (h : l.token = l'.token) : l = l' := by
  cases l <;> cases l' <;> cases h <;> rfl

theorem Literal.token_ne_path (l : Literal) (p : String) : l.token ≠ .path p := by
  cases l <;> nofun

-- By induction on the first tree. What follows it on each side joins nothing to it, so both
-- trees end at the same token.
mutual

theorem OrTree.tokens_unique (t t' : OrTree) {rest rest' : List Token} (h : EndsBelow 1 rest)
    (h' : EndsBelow 1 rest') (he : t.tokens ++ rest = t'.tokens ++ rest') :
    t = t' ∧ rest = rest' := by
  obtain ⟨first, more⟩ := t
  obtain ⟨first', more'⟩ := t'
  rw [OrTree.tokens, OrTree.tokens, List.append_assoc, List.append_assoc] at he
  obtain ⟨rfl, hmore⟩ := first.tokens_unique first' (more.endsBelow h) (more'.endsBelow h') he
  obtain ⟨rfl, rfl⟩ := more.tokens_unique more' h h' hmore
  exact ⟨rfl, rfl⟩
termination_by structural t

theorem OrMore.tokens_unique (t t' : OrMore) {rest rest' : List Token} (h : EndsBelow 1 rest)
    (h' : EndsBelow 1 rest') (he : t.tokens ++ rest = t'.tokens ++ rest') :
    t = t' ∧ rest = rest' := by
  cases t with
  | nil =>
    cases t' with
    | nil => exact ⟨rfl, he⟩
    | cons next' more' => exact absurd (congrArg List.head? he) (h.head_ne (Nat.le_refl 1))
  | cons next more =>
    cases t' with
    | nil => exact absurd (congrArg List.head? he).symm (h'.head_ne (Nat.le_refl 1))
    | cons next' more' =>
      rw [OrMore.tokens, OrMore.tokens, List.cons_append, List.cons_append, List.append_assoc,
        List.append_assoc] at he
      obtain ⟨rfl, hmore⟩ := next.tokens_unique next' (more.endsBelow h) (more'.endsBelow h')
        (List.cons_inj_right _ |>.mp he)
      obtain ⟨rfl, rfl⟩ := more.tokens_unique more' h h' hmore
      exact ⟨rfl, rfl⟩
termination_by structural t

theorem AndTree.tokens_unique (t t' : AndTree) {rest rest' : List Token} (h : EndsBelow 2 rest)
    (h' : EndsBelow 2 rest') (he : t.tokens ++ rest = t'.tokens ++ rest') :
    t = t' ∧ rest = rest' := by
  obtain ⟨first, more⟩ := t
  obtain ⟨first', more'⟩ := t'
  rw [AndTree.tokens, AndTree.tokens, List.append_assoc, List.append_assoc] at he
  obtain ⟨rfl, hmore⟩ := first.tokens_unique first' (more.endsBelow h) (more'.endsBelow h') he
  obtain ⟨rfl, rfl⟩ := more.tokens_unique more' h h' hmore
  exact ⟨rfl, rfl⟩
termination_by structural t

theorem AndMore.tokens_unique (t t' : AndMore) {rest rest' : List Token} (h : EndsBelow 2 rest)
    (h' : EndsBelow 2 rest') (he : t.tokens ++ rest = t'.tokens ++ rest') :
    t = t' ∧ rest = rest' := by
  cases t with
  | nil =>
    cases t' with
    | nil => exact ⟨rfl, he⟩
    | cons next' more' => exact absurd (congrArg List.head? he) (h.head_ne (Nat.le_refl 2))
  | cons next more =>
    cases t' with
    | nil => exact absurd (congrArg List.head? he).symm (h'.head_ne (Nat.le_refl 2))
    | cons next' more' =>
      rw [AndMore.tokens, AndMore.tokens, List.cons_append, List.cons_append, List.append_assoc,
        List.append_assoc] at he
      obtain ⟨rfl, hmore⟩ := next.tokens_unique next' (more.endsBelow h) (more'.endsBelow h')
        (List.cons_inj_right _ |>.mp he)
      obtain ⟨rfl, rfl⟩ := more.tokens_unique more' h h' hmore
      exact ⟨rfl, rfl⟩
termination_by structural t

theorem NotTree.tokens_unique (t t' : NotTree) {rest rest' : List Token} (h : EndsBelow 3 rest)
    (h' : EndsBelow 3 rest') (he : t.tokens ++ rest = t'.tokens ++ rest') :
    t = t' ∧ rest = rest' := by
  cases t with
  | not operand =>
    cases t' with
    | not operand' =>
      obtain ⟨rfl, rfl⟩ := operand.tokens_unique operand' h h' (List.cons_inj_right _ |>.mp he)
      exact ⟨rfl, rfl⟩
    | of operand' => exact absurd (congrArg List.head? he).symm (operand'.head_ne_not rest')
  | of operand =>
    cases t' with
    | not operand' => exact absurd (congrArg List.head? he) (operand.head_ne_not rest)
    | of operand' =>
      obtain ⟨rfl, rfl⟩ := operand.tokens_unique operand' h h' he
      exact ⟨rfl, rfl⟩
termination_by structural t

theorem ComparisonTree.tokens_unique (t t' : ComparisonTree) {rest rest' : List Token}
    (h : EndsBelow 3 rest) (h' : EndsBelow 3 rest') (he : t.tokens ++ rest = t'.tokens ++ rest') :
    t = t' ∧ rest = rest' := by
  cases t with
  | compare op left right =>
    rw [ComparisonTree.tokens, List.append_assoc] at he
    cases t' with
    | compare op' left' right' =>
      rw [ComparisonTree.tokens, List.append_assoc] at he
      obtain ⟨rfl, hcompare⟩ := left.tokens_unique left' he
      obtain ⟨hop, hright⟩ := List.cons_eq_cons.mp hcompare
      obtain rfl := Token.compare.inj hop
      obtain ⟨rfl, rfl⟩ := right.tokens_unique right' hright
      exact ⟨rfl, rfl⟩
    | of operand' =>
      obtain ⟨-, hrest⟩ := left.tokens_unique operand' he
      exact absurd (congrArg List.head? hrest).symm (h'.head_ne (Nat.le_refl 3))
  | of operand =>
    cases t' with
    | compare op' left' right' =>
      rw [ComparisonTree.tokens, ComparisonTree.tokens, List.append_assoc] at he
      obtain ⟨-, hrest⟩ := operand.tokens_unique left' he
      exact absurd (congrArg List.head? hrest) (h.head_ne (Nat.le_refl 3))
    | of operand' =>
      obtain ⟨rfl, rfl⟩ := operand.tokens_unique operand' he
      exact ⟨rfl, rfl⟩
termination_by structural t

theorem PrimaryTree.tokens_unique (t t' : PrimaryTree) {rest rest' : List Token}
    (he : t.tokens ++ rest = t'.tokens ++ rest') : t = t' ∧ rest = rest' := by
  cases t with
  | literal l =>
    cases t' with
    | literal l' =>
      obtain ⟨hl, rfl⟩ := List.cons_eq_cons.mp he
      exact ⟨congrArg _ (Literal.token_inj hl), rfl⟩
    | path p' => exact absurd (List.cons_eq_cons.mp he).1 (l.token_ne_path p')
    | group inner' => exact absurd (List.cons_eq_cons.mp he).1 l.token_ne_opening
  | path p =>
    cases t' with
    | literal l' => exact absurd (List.cons_eq_cons.mp he).1.symm (l'.token_ne_path p)
    | path p' =>
      obtain ⟨hp, rfl⟩ := List.cons_eq_cons.mp he
      exact ⟨congrArg _ (Token.path.inj hp), rfl⟩
    | group inner' => cases he
  | group inner =>
    cases t' with
    | literal l' => exact absurd (List.cons_eq_cons.mp he).1.symm l'.token_ne_opening
    | path p' => cases he
    | group inner' =>
      have hinner := (List.cons_eq_cons.mp he).2
      simp only [List.append_eq, List.append_assoc] at hinner
      have hend {rest : List Token} : EndsBelow 1 ([.closing] ++ rest) := by simp [Token.rank]
      obtain ⟨rfl, hclose⟩ := inner.tokens_unique inner' hend hend hinner
      exact ⟨rfl, (List.cons_eq_cons.mp hclose).2⟩
termination_by structural t

end

-- ---------------------------------------------------------------------------
-- Comparisons are not chained
-- ---------------------------------------------------------------------------

/-- After each comparison comes an operand, and after that no other comparison. -/
def Unchained (ts : List Token) : Prop :=
  ∀ before op after, ts = before ++ .compare op :: after →
    ∃ (operand : PrimaryTree) (rest : List Token), after = operand.tokens ++ rest ∧
      EndsBelow 3 rest

namespace Unchained

variable {xs ys : List Token}

theorem append (hx : Unchained xs) (hy : Unchained ys) (h : EndsBelow 3 ys) :
    Unchained (xs ++ ys) := by
  intro before op after he
  rcases List.append_eq_append_iff.mp he with ⟨middle, rfl, hys⟩ | ⟨middle, hxs, hcompare⟩
  · exact hy middle op after hys
  rcases middle with _ | ⟨token, middle⟩
  · exact hy [] op after hcompare.symm
  · obtain ⟨rfl, rfl⟩ := List.cons_eq_cons.mp hcompare
    obtain ⟨operand, rest, rfl, hrest⟩ := hx before op middle hxs
    refine ⟨operand, rest ++ ys, List.append_assoc .., ?_⟩
    cases rest with
    | nil => exact h
    | cons token rest => exact endsBelow_cons.mpr (endsBelow_cons.mp hrest)

theorem nil : Unchained [] := by
  intro before op after he
  simp at he

theorem cons {token : Token} (h : token.rank ≠ 3) (hx : Unchained xs) :
    Unchained (token :: xs) := by
  intro before op after he
  rcases List.cons_eq_append_iff.mp he with ⟨-, he⟩ | ⟨before, -, he⟩
  · cases he
    exact absurd rfl h
  · exact hx before op after he

theorem compare {op : Comparison} {operand : PrimaryTree} (h : Unchained operand.tokens) :
    Unchained (.compare op :: operand.tokens) := by
  intro before op' after he
  rcases List.cons_eq_append_iff.mp he with ⟨-, he⟩ | ⟨before, -, he⟩
  · cases he
    exact ⟨operand, [], (List.append_nil _).symm, endsBelow_nil 3⟩
  · exact h before op' after he

end Unchained

theorem Literal.token_rank (l : Literal) : l.token.rank = 0 := by
  cases l <;> rfl

-- By induction on the tree.
mutual

theorem OrTree.unchained (t : OrTree) : Unchained t.tokens := by
  obtain ⟨first, more⟩ := t
  exact first.unchained.append more.unchained (more.ends.mono (by decide))

theorem OrMore.unchained (t : OrMore) : Unchained t.tokens := by
  cases t with
  | nil => exact .nil
  | cons next more =>
    exact .cons (by decide) (next.unchained.append more.unchained (more.ends.mono (by decide)))

theorem AndTree.unchained (t : AndTree) : Unchained t.tokens := by
  obtain ⟨first, more⟩ := t
  exact first.unchained.append more.unchained more.ends

theorem AndMore.unchained (t : AndMore) : Unchained t.tokens := by
  cases t with
  | nil => exact .nil
  | cons next more => exact .cons (by decide) (next.unchained.append more.unchained more.ends)

theorem NotTree.unchained (t : NotTree) : Unchained t.tokens := by
  cases t with
  | not operand => exact .cons (by decide) operand.unchained
  | of operand => exact operand.unchained

theorem ComparisonTree.unchained (t : ComparisonTree) : Unchained t.tokens := by
  cases t with
  | compare op left right =>
    have hright : Unchained right.tokens := by simpa using right.unchained_append .nil
    exact left.unchained_append (.compare hright)
  | of operand => simpa [ComparisonTree.tokens] using operand.unchained_append .nil

/-- A comparison inside an operand is inside its parentheses. -/
theorem PrimaryTree.unchained_append (t : PrimaryTree) {rest : List Token} (h : Unchained rest) :
    Unchained (t.tokens ++ rest) := by
  cases t with
  | literal l => exact .cons (by simp [l.token_rank]) h
  | path p =>
    have hrank : (Token.path p).rank ≠ 3 := nofun
    exact .cons hrank h
  | group inner =>
    rw [PrimaryTree.tokens, List.cons_append, List.append_assoc]
    exact .cons (by decide) (inner.unchained.append (.cons (by decide) h)
      (endsBelow_cons.mpr (by decide)))

end

-- ---------------------------------------------------------------------------
-- Expressions
-- ---------------------------------------------------------------------------

/-- A list of tokens is read to its end as an expression with a value just where it has a tree
of the grammar with that value. There is no second tree with these tokens. Where the right
operand of a comparison is followed by another comparison there is no tree, and no value. -/
theorem expressions_have_one_tree (b : Bindings) (ts : List Token) :
    (∀ v, (∃ h, orPhrase b ts = .ok (v, ⟨[], h⟩)) ↔
      ∃ t : OrTree, t.tokens = ts ∧ t.value b = .ok v) ∧
    (∀ t t' : OrTree, t.tokens = ts → t'.tokens = ts → t = t') ∧
    ∀ before op (operand : PrimaryTree) op' after,
      ts = before ++ .compare op :: (operand.tokens ++ .compare op' :: after) →
        (∀ t : OrTree, t.tokens ≠ ts) ∧ ∀ v h, orPhrase b ts ≠ .ok (v, ⟨[], h⟩) := by
  have hreads (v : Argument) : (∃ h, orPhrase b ts = .ok (v, ⟨[], h⟩)) ↔
      ∃ t : OrTree, t.tokens = ts ∧ t.value b = .ok v := by
    refine (reading_ok (P := (·.length < ts.length))).symm.trans ⟨fun h => ?_, ?_⟩
    · obtain ⟨t, ht, hv⟩ := orPhrase_reads b h
      exact ⟨t, by rw [ht, List.append_nil], hv⟩
    · rintro ⟨t, rfl, hv⟩
      have h := t.reading_tokens b (endsBelow_nil 1)
      rwa [List.append_nil, hv] at h
  refine ⟨hreads, fun t t' ht ht' => ?_, fun before op operand op' after hts => ?_⟩
  · have he : t.tokens ++ [] = t'.tokens ++ [] := by rw [ht, ht']
    exact (t.tokens_unique t' (endsBelow_nil 1) (endsBelow_nil 1) he).1
  have hno (t : OrTree) : t.tokens ≠ ts := by
    rintro ht
    obtain ⟨operand', rest, he, hrest⟩ := t.unchained before op _ (ht.trans hts)
    obtain ⟨-, rfl⟩ := operand.tokens_unique operand' he
    exact absurd (endsBelow_cons.mp hrest) (Nat.lt_irrefl 3)
  refine ⟨hno, fun v h hv => ?_⟩
  obtain ⟨t, ht, -⟩ := (hreads v).mp ⟨h, hv⟩
  exact hno t ht

/-- Of `true or false and false`, `and` takes its operands first. -/
theorem true_or_false_and_false_has_one_tree :
    (∃ h, orPhrase [] [.boolean true, .or, .boolean false, .and, .boolean false] =
      .ok (.ofBool true, ⟨[], h⟩)) ∧
    ∀ v h, orPhrase [] [.int 1, .compare .lt, .int 2, .compare .lt, .int 3] ≠
      .ok (v, ⟨[], h⟩) := by
  let operand (b : Bool) : NotTree := .of (.of (.literal (.boolean b)))
  let tree : OrTree := .mk (.mk (operand true) .nil)
    (.cons (.mk (operand false) (.cons (operand false) .nil)) .nil)
  constructor
  · exact ((expressions_have_one_tree [] _).1 _).mpr ⟨tree, rfl, rfl⟩
  · exact ((expressions_have_one_tree [] _).2.2 [.int 1] .lt (.literal (.int 2)) .lt [.int 3]
      rfl).2

end MappedSql.Expression
