import LocalizedQuery.Predicate.Parse

/-!
# What a text is read as

Syntax trees can be compared, so for a given text it is found out by reading it which tree it has,
and what the text denotes is what that tree is lowered to.

## Main results

* `Tree.same_iff` — the comparison of trees is equality
* `parsePredicate_of_tree` — the tree decides what a text denotes
-/

namespace LocalizedQuery

namespace Tree

mutual

/-- Whether two trees are the same. -/
def same : Tree → Tree → Bool
  | .name ident, .name ident' => ident == ident'
  | .path parts, .path parts' => parts == parts'
  | .number digits long, .number digits' long' => digits == digits' && long == long'
  | .text value, .text value' => value == value'
  | .bool value, .bool value' => value == value'
  | .null, .null => true
  | .nested inner, .nested inner' => inner.same inner'
  | .binary left op right, .binary left' op' right' =>
    left.same left' && op == op' && right.same right'
  | .signed sign operand, .signed sign' operand' => sign == sign' && operand.same operand'
  | .isNull operand negated, .isNull operand' negated' =>
    operand.same operand' && negated == negated'
  | .inList operand values negated, .inList operand' values' negated' =>
    operand.same operand' && sameList values values' && negated == negated'
  | .between operand low high negated, .between operand' low' high' negated' =>
    operand.same operand' && low.same low' && high.same high' && negated == negated'
  | .like operand pattern negated anyOf escape, .like operand' pattern' negated' anyOf' escape' =>
    operand.same operand' && pattern.same pattern' && negated == negated' && anyOf == anyOf' &&
      escape == escape'
  | .call form args, .call form' args' => form == form' && sameArguments args args'
  | .subquery spelling, .subquery spelling' => spelling == spelling'
  | .foreign spelling, .foreign spelling' => spelling == spelling'
  | _, _ => false

/-- Whether two lists of trees are the same. -/
def sameList : List Tree → List Tree → Bool
  | [], [] => true
  | tree :: rest, tree' :: rest' => tree.same tree' && sameList rest rest'
  | _, _ => false

/-- Whether two lists of arguments are the same. -/
def sameArguments : List Argument → List Argument → Bool
  | [], [] => true
  | .positional value :: rest, .positional value' :: rest' =>
    value.same value' && sameArguments rest rest'
  | .special spelling :: rest, .special spelling' :: rest' =>
    spelling == spelling' && sameArguments rest rest'
  | _, _ => false

end

mutual

/-- **The comparison of trees is equality.** -/
theorem same_iff (tree tree' : Tree) : tree.same tree' = true ↔ tree = tree' := by
  match tree with
  | .name _ | .path _ | .number .. | .text _ | .bool _ | .null | .subquery _ | .foreign _ =>
    cases tree' <;> simp [same]
  | .nested inner | .isNull inner _ | .signed _ inner =>
    cases tree' <;> simp [same, same_iff inner]
  | .binary left op right =>
    cases tree' <;> simp [same, same_iff left, same_iff right, and_assoc]
  | .inList operand values _ =>
    cases tree' <;> simp [same, same_iff operand, sameList_iff values, and_assoc]
  | .between operand low high _ =>
    cases tree' <;>
      simp [same, same_iff operand, same_iff low, same_iff high, and_assoc]
  | .like operand pattern _ _ _ =>
    cases tree' <;> simp [same, same_iff operand, same_iff pattern, and_assoc]
  | .call form args =>
    cases tree' <;> simp [same, sameArguments_iff args]

theorem sameList_iff (trees trees' : List Tree) :
    sameList trees trees' = true ↔ trees = trees' := by
  match trees with
  | [] => cases trees' <;> simp [sameList]
  | tree :: rest => cases trees' <;> simp [sameList, same_iff tree, sameList_iff rest]

theorem sameArguments_iff (args args' : List Argument) :
    sameArguments args args' = true ↔ args = args' := by
  match args with
  | [] => cases args' <;> simp [sameArguments]
  | .positional value :: rest =>
    match args' with
    | [] => simp [sameArguments]
    | .special _ :: _ => simp [sameArguments]
    | .positional value' :: rest' =>
      simp [sameArguments, same_iff value, sameArguments_iff rest]
  | .special spelling :: rest =>
    match args' with
    | [] => simp [sameArguments]
    | .positional _ :: _ => simp [sameArguments]
    | .special spelling' :: rest' => simp [sameArguments, sameArguments_iff rest]

end

instance : DecidableEq Tree := fun tree tree' => decidable_of_iff _ (same_iff tree tree')

end Tree

/-- What a text denotes is what its tree is lowered to. -/
theorem parsePredicate_of_tree {resolve : String → Option Expr} {text : String} {tree : Tree}
    (htree : Tree.ofText text = .ok tree) :
    parsePredicate resolve text = (tree.lower resolve).mapError .unsupported := by
  rw [parsePredicate, htree]
  rfl

end LocalizedQuery
