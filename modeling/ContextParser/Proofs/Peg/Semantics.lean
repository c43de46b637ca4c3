/-!
# Parsing expressions

Parsing expression grammars, with the meaning that Ford gave them: a relation between an expression,
the characters that remain, and what comes of it, which is either the prefix that the expression
consumes or failure. The relation says nothing of bytes, cursors or loops, and an expression for
which nothing can be derived is one whose recognition never ends.

Sequences and choices come in pairs and in families of any length. A family is read from its head:
what comes of it is what comes of the head and of the family that is left.
-/

set_option autoImplicit false

namespace ContextParser

/-- Parsing expressions over named nonterminals. -/
inductive Peg (N : Type) : Type where
  /-- Exactly the given text. -/
  | literal (text : String)
  /-- One character of a class. -/
  | charClass (accepts : Char → Bool)
  /-- One expression after the other. -/
  | both (left right : Peg N)
  /-- A family of expressions one after the other. -/
  | all {n : Nat} (parts : Fin n → Peg N)
  /-- The second expression where the first fails. -/
  | or (left right : Peg N)
  /-- The first expression of a family that does not fail. -/
  | any {n : Nat} (alternatives : Fin n → Peg N)
  /-- As often as possible. -/
  | many (body : Peg N)
  /-- As often as possible, and at least once. -/
  | many1 (body : Peg N)
  /-- The expression, or nothing where it fails. -/
  | opt (body : Peg N)
  /-- What the nonterminal stands for. -/
  | call (name : N)

namespace Peg

/-- What comes of an expression. -/
inductive Result where
  /-- The expression consumes a prefix, and the rest remains. -/
  | consumed (front rest : List Char)
  | failed

variable {N : Type}

/-- What comes of an expression on the characters that remain, where `rules` tells what each
nonterminal stands for. -/
inductive Derives (rules : N → Peg N) : Peg N → List Char → Result → Prop where
  | literal {text : String} {cs rest : List Char} (h : cs = text.toList ++ rest) :
      Derives rules (.literal text) cs (.consumed text.toList rest)
  | literal_failed {text : String} {cs : List Char} (h : ¬text.toList <+: cs) :
      Derives rules (.literal text) cs .failed
  | charClass {accepts : Char → Bool} {c : Char} {rest : List Char} (h : accepts c = true) :
      Derives rules (.charClass accepts) (c :: rest) (.consumed [c] rest)
  | charClass_failed {accepts : Char → Bool} {c : Char} {rest : List Char}
      (h : accepts c = false) : Derives rules (.charClass accepts) (c :: rest) .failed
  | charClass_end {accepts : Char → Bool} : Derives rules (.charClass accepts) [] .failed
  | both {left right : Peg N} {cs front back middle rest : List Char}
      (hleft : Derives rules left cs (.consumed front back))
      (hright : Derives rules right back (.consumed middle rest)) :
      Derives rules (.both left right) cs (.consumed (front ++ middle) rest)
  | both_left_failed {left right : Peg N} {cs : List Char}
      (hleft : Derives rules left cs .failed) : Derives rules (.both left right) cs .failed
  | both_right_failed {left right : Peg N} {cs front back : List Char}
      (hleft : Derives rules left cs (.consumed front back))
      (hright : Derives rules right back .failed) : Derives rules (.both left right) cs .failed
  | all_nil {parts : Fin 0 → Peg N} {cs : List Char} :
      Derives rules (.all parts) cs (.consumed [] cs)
  | all_cons {n : Nat} {parts : Fin (n + 1) → Peg N} {cs front back middle rest : List Char}
      (hhead : Derives rules (parts 0) cs (.consumed front back))
      (htail : Derives rules (.all fun i => parts i.succ) back (.consumed middle rest)) :
      Derives rules (.all parts) cs (.consumed (front ++ middle) rest)
  | all_head_failed {n : Nat} {parts : Fin (n + 1) → Peg N} {cs : List Char}
      (hhead : Derives rules (parts 0) cs .failed) : Derives rules (.all parts) cs .failed
  | all_tail_failed {n : Nat} {parts : Fin (n + 1) → Peg N} {cs front back : List Char}
      (hhead : Derives rules (parts 0) cs (.consumed front back))
      (htail : Derives rules (.all fun i => parts i.succ) back .failed) :
      Derives rules (.all parts) cs .failed
  | or_left {left right : Peg N} {cs front rest : List Char}
      (hleft : Derives rules left cs (.consumed front rest)) :
      Derives rules (.or left right) cs (.consumed front rest)
  | or_right {left right : Peg N} {cs : List Char} {result : Result}
      (hleft : Derives rules left cs .failed) (hright : Derives rules right cs result) :
      Derives rules (.or left right) cs result
  | any_nil {alternatives : Fin 0 → Peg N} {cs : List Char} :
      Derives rules (.any alternatives) cs .failed
  | any_head {n : Nat} {alternatives : Fin (n + 1) → Peg N} {cs front rest : List Char}
      (hhead : Derives rules (alternatives 0) cs (.consumed front rest)) :
      Derives rules (.any alternatives) cs (.consumed front rest)
  | any_tail {n : Nat} {alternatives : Fin (n + 1) → Peg N} {cs : List Char} {result : Result}
      (hhead : Derives rules (alternatives 0) cs .failed)
      (htail : Derives rules (.any fun i => alternatives i.succ) cs result) :
      Derives rules (.any alternatives) cs result
  | many_stop {body : Peg N} {cs : List Char} (hbody : Derives rules body cs .failed) :
      Derives rules (.many body) cs (.consumed [] cs)
  | many_step {body : Peg N} {cs front back middle rest : List Char}
      (hbody : Derives rules body cs (.consumed front back))
      (hmany : Derives rules (.many body) back (.consumed middle rest)) :
      Derives rules (.many body) cs (.consumed (front ++ middle) rest)
  | many1 {body : Peg N} {cs front back middle rest : List Char}
      (hbody : Derives rules body cs (.consumed front back))
      (hmany : Derives rules (.many body) back (.consumed middle rest)) :
      Derives rules (.many1 body) cs (.consumed (front ++ middle) rest)
  | many1_failed {body : Peg N} {cs : List Char} (hbody : Derives rules body cs .failed) :
      Derives rules (.many1 body) cs .failed
  | opt_some {body : Peg N} {cs front rest : List Char}
      (hbody : Derives rules body cs (.consumed front rest)) :
      Derives rules (.opt body) cs (.consumed front rest)
  | opt_none {body : Peg N} {cs : List Char} (hbody : Derives rules body cs .failed) :
      Derives rules (.opt body) cs (.consumed [] cs)
  | call {name : N} {cs : List Char} {result : Result}
      (hbody : Derives rules (rules name) cs result) : Derives rules (.call name) cs result

/-- An expression that consumes something whenever it succeeds. -/
def Consumes (rules : N → Peg N) (e : Peg N) : Prop :=
  ∀ cs rest, ¬Derives rules e cs (.consumed [] rest)

/-- The bodies of all repetitions in an expression consume something whenever they succeed. -/
def Progressive (rules : N → Peg N) : Peg N → Prop
  | literal _ => True
  | charClass _ => True
  | both left right => Progressive rules left ∧ Progressive rules right
  | all parts => ∀ i, Progressive rules (parts i)
  | or left right => Progressive rules left ∧ Progressive rules right
  | any alternatives => ∀ i, Progressive rules (alternatives i)
  | many body => Consumes rules body ∧ Progressive rules body
  | many1 body => Consumes rules body ∧ Progressive rules body
  | opt body => Progressive rules body
  | call _ => True

namespace Derives

variable {rules : N → Peg N} {e : Peg N} {cs : List Char} {result : Result}

/-- What is consumed is a prefix, and what remains is the rest behind it. -/
theorem eq_append (h : Derives rules e cs result) {front rest : List Char}
    (hresult : result = .consumed front rest) : cs = front ++ rest := by
  induction h generalizing front rest with
  | literal h =>
    obtain ⟨rfl, rfl⟩ := Result.consumed.inj hresult
    exact h
  | charClass h =>
    obtain ⟨rfl, rfl⟩ := Result.consumed.inj hresult
    rfl
  | all_nil =>
    obtain ⟨rfl, rfl⟩ := Result.consumed.inj hresult
    rfl
  | many_stop hbody ih =>
    obtain ⟨rfl, rfl⟩ := Result.consumed.inj hresult
    rfl
  | opt_none hbody ih =>
    obtain ⟨rfl, rfl⟩ := Result.consumed.inj hresult
    rfl
  | both hleft hright ihleft ihright =>
    obtain ⟨rfl, rfl⟩ := Result.consumed.inj hresult
    rw [ihleft rfl, ihright rfl, List.append_assoc]
  | all_cons hhead htail ihhead ihtail =>
    obtain ⟨rfl, rfl⟩ := Result.consumed.inj hresult
    rw [ihhead rfl, ihtail rfl, List.append_assoc]
  | many_step hbody hmany ihbody ihmany =>
    obtain ⟨rfl, rfl⟩ := Result.consumed.inj hresult
    rw [ihbody rfl, ihmany rfl, List.append_assoc]
  | many1 hbody hmany ihbody ihmany =>
    obtain ⟨rfl, rfl⟩ := Result.consumed.inj hresult
    rw [ihbody rfl, ihmany rfl, List.append_assoc]
  | or_left hleft ih => exact ih hresult
  | or_right hleft hright ihleft ihright => exact ihright hresult
  | any_head hhead ih => exact ih hresult
  | any_tail hhead htail ihhead ihtail => exact ihtail hresult
  | opt_some hbody ih => exact ih hresult
  | call hbody ih => exact ih hresult
  | _ => cases hresult

/-- At most one thing comes of an expression. -/
theorem deterministic (h : Derives rules e cs result) {result' : Result}
    (h' : Derives rules e cs result') : result = result' := by
  induction h generalizing result' with
  | @literal text cs rest h =>
    cases h' with
    | literal k =>
      obtain rfl : rest = _ := List.append_cancel_left (h.symm.trans k)
      rfl
    | literal_failed k => exact absurd ⟨rest, h.symm⟩ k
  | literal_failed h =>
    cases h' with
    | @literal _ _ rest k => exact absurd ⟨rest, k.symm⟩ h
    | literal_failed => rfl
  | charClass h =>
    cases h' with
    | charClass => rfl
    | charClass_failed k => simp [h] at k
  | charClass_failed h =>
    cases h' with
    | charClass k => simp [h] at k
    | charClass_failed => rfl
  | charClass_end =>
    cases h'
    rfl
  -- both derivations go through the same left part, so the right ones start on the same characters
  | both hleft hright ihleft ihright =>
    cases h' with
    | both kleft kright =>
      obtain ⟨rfl, rfl⟩ := Result.consumed.inj (ihleft kleft)
      obtain ⟨rfl, rfl⟩ := Result.consumed.inj (ihright kright)
      rfl
    | both_left_failed kleft => cases ihleft kleft
    | both_right_failed kleft kright =>
      obtain ⟨rfl, rfl⟩ := Result.consumed.inj (ihleft kleft)
      cases ihright kright
  | both_left_failed hleft ihleft =>
    cases h' with
    | both kleft => cases ihleft kleft
    | both_left_failed => rfl
    | both_right_failed kleft => cases ihleft kleft
  | both_right_failed hleft hright ihleft ihright =>
    cases h' with
    | both kleft kright =>
      obtain ⟨rfl, rfl⟩ := Result.consumed.inj (ihleft kleft)
      cases ihright kright
    | both_left_failed => rfl
    | both_right_failed => rfl
  | all_nil =>
    cases h'
    rfl
  | all_cons hhead htail ihhead ihtail =>
    cases h' with
    | all_cons khead ktail =>
      obtain ⟨rfl, rfl⟩ := Result.consumed.inj (ihhead khead)
      obtain ⟨rfl, rfl⟩ := Result.consumed.inj (ihtail ktail)
      rfl
    | all_head_failed khead => cases ihhead khead
    | all_tail_failed khead ktail =>
      obtain ⟨rfl, rfl⟩ := Result.consumed.inj (ihhead khead)
      cases ihtail ktail
  | all_head_failed hhead ihhead =>
    cases h' with
    | all_cons khead => cases ihhead khead
    | all_head_failed => rfl
    | all_tail_failed khead => cases ihhead khead
  | all_tail_failed hhead htail ihhead ihtail =>
    cases h' with
    | all_cons khead ktail =>
      obtain ⟨rfl, rfl⟩ := Result.consumed.inj (ihhead khead)
      cases ihtail ktail
    | all_head_failed => rfl
    | all_tail_failed => rfl
  -- the right alternative is tried only where the left one fails, which it cannot do both ways
  | or_left hleft ihleft =>
    cases h' with
    | or_left kleft => exact ihleft kleft
    | or_right kleft => cases ihleft kleft
  | or_right hleft hright ihleft ihright =>
    cases h' with
    | or_left kleft => cases ihleft kleft
    | or_right kleft kright => exact ihright kright
  | any_nil =>
    cases h'
    rfl
  | any_head hhead ihhead =>
    cases h' with
    | any_head khead => exact ihhead khead
    | any_tail khead => cases ihhead khead
  | any_tail hhead htail ihhead ihtail =>
    cases h' with
    | any_head khead => cases ihhead khead
    | any_tail khead ktail => exact ihtail ktail
  | many_stop hbody ihbody =>
    cases h' with
    | many_stop => rfl
    | many_step kbody => cases ihbody kbody
  | many_step hbody hmany ihbody ihmany =>
    cases h' with
    | many_stop kbody => cases ihbody kbody
    | many_step kbody kmany =>
      obtain ⟨rfl, rfl⟩ := Result.consumed.inj (ihbody kbody)
      obtain ⟨rfl, rfl⟩ := Result.consumed.inj (ihmany kmany)
      rfl
  | many1 hbody hmany ihbody ihmany =>
    cases h' with
    | many1 kbody kmany =>
      obtain ⟨rfl, rfl⟩ := Result.consumed.inj (ihbody kbody)
      obtain ⟨rfl, rfl⟩ := Result.consumed.inj (ihmany kmany)
      rfl
    | many1_failed kbody => cases ihbody kbody
  | many1_failed hbody ihbody =>
    cases h' with
    | many1 kbody => cases ihbody kbody
    | many1_failed => rfl
  | opt_some hbody ihbody =>
    cases h' with
    | opt_some kbody => exact ihbody kbody
    | opt_none kbody => cases ihbody kbody
  | opt_none hbody ihbody =>
    cases h' with
    | opt_some kbody => cases ihbody kbody
    | opt_none => rfl
  | call hbody ihbody =>
    cases h' with
    | call kbody => exact ihbody kbody

/-- Nothing comes of a repetition whose body succeeds on nothing: another round would start where
this one did. -/
theorem front_ne_nil_of_many {body : Peg N} (h : Derives rules (.many body) cs result)
    {front rest : List Char} (hbody : Derives rules body cs (.consumed front rest)) :
    front ≠ [] := by
  generalize hrepetition : Peg.many body = repetition at h
  rintro rfl
  -- a first round that consumes nothing leaves the same repetition on the same characters
  induction h with
  | many_stop kbody =>
    obtain rfl := Peg.many.inj hrepetition
    cases kbody.deterministic hbody
  | @many_step _ cs front' back _ _ kbody kmany _ ihmany =>
    obtain rfl := Peg.many.inj hrepetition
    obtain ⟨rfl, rfl⟩ := Result.consumed.inj (kbody.deterministic hbody)
    obtain rfl : cs = back := kbody.eq_append rfl
    exact ihmany rfl hbody
  | _ => cases hrepetition

end Derives

end Peg

end ContextParser
