/-
  RulePlan.Event — what is noted while trees are read and compiled.

  An event has a level, a part of the library that it comes from, a message and named
  fields. Functions that note events and have no other state return a `Noted` value:
  the value and the events in order; how the events are combined does not touch the
  value (`Noted.value_pure`, `Noted.value_bind`, `Noted.value_mapM`).
-/

import RulePlan.Number.Numeral

namespace RulePlan

inductive Level where
  | debug
  | warn
  | error
  deriving DecidableEq, Repr

inductive Origin where
  | attributes
  | treeReader
  | compiler
  | widget
  deriving DecidableEq, Repr

inductive Event where
  | unknownAttribute (code : String)
  | lookupFailed (code error : String)
  | rootMalformed
  | rootNotAnObject (kind : String)
  | nodeNotAnObject (kind : String)
  | combineTooDeep (depth : Nat)
  | unknownAggregator (name : String)
  | aggregatorNotAString (kind : String)
  | conditionWithoutField (nodeType : String)
  | pathsTooDeep (depth skipped : Nat)
  | combineBelowLimit (depth : Nat)
  | conditionDropped (field reason : String)
  | compiled (groups predicates dropped lookups : Nat)
  | conditionsUndecodable (error encoded : String)
  | noAttributeSet
  | widgetConditionDropped (field reason : String)
  deriving DecidableEq, Repr

namespace Event

def level : Event → Level
  | .conditionsUndecodable .. => .error
  | .noAttributeSet => .error
  | .widgetConditionDropped .. => .warn
  | _ => .debug

def origin : Event → Origin
  | .unknownAttribute .. => .attributes
  | .lookupFailed .. => .attributes
  | .combineBelowLimit .. => .compiler
  | .conditionDropped .. => .compiler
  | .compiled .. => .compiler
  | .conditionsUndecodable .. => .widget
  | .noAttributeSet => .widget
  | .widgetConditionDropped .. => .widget
  | _ => .treeReader

def message : Event → String
  | .unknownAttribute .. => "unknown attribute"
  | .lookupFailed .. => "attribute lookup failed"
  | .rootMalformed => "root node is malformed, using an empty tree"
  | .rootNotAnObject .. => "root is not an object"
  | .nodeNotAnObject .. => "skipping non-object node"
  | .combineTooDeep .. => "skipping combine nested too deep"
  | .unknownAggregator .. => "skipping combine with unknown aggregator"
  | .aggregatorNotAString .. => "skipping combine with non-string aggregator"
  | .conditionWithoutField .. => "skipping condition without field"
  | .pathsTooDeep .. => "skipping flat paths nested too deep"
  | .combineBelowLimit .. => "combine node exceeds depth limit"
  | .conditionDropped .. => "condition dropped"
  | .compiled .. => "compiled condition tree"
  | .conditionsUndecodable .. => "failed to decode widget conditions"
  | .noAttributeSet => "no attribute set configured, widget will render empty"
  | .widgetConditionDropped .. => "condition dropped from widget filter"

def fields : Event → List (String × String)
  | .unknownAttribute code => [("code", code)]
  | .lookupFailed code error => [("code", code), ("error", error)]
  | .rootMalformed => []
  | .rootNotAnObject kind => [("kind", kind)]
  | .nodeNotAnObject kind => [("kind", kind)]
  | .combineTooDeep depth => [("depth", toString depth)]
  | .unknownAggregator name => [("aggregator", name)]
  | .aggregatorNotAString kind => [("kind", kind)]
  | .conditionWithoutField nodeType => [("node_type", nodeType)]
  | .pathsTooDeep depth skipped => [("depth", toString depth), ("skipped", toString skipped)]
  | .combineBelowLimit depth => [("depth", toString depth)]
  | .conditionDropped field reason => [("field", field), ("reason", reason)]
  | .compiled groups predicates dropped lookups =>
    [("groups", toString groups), ("predicates", toString predicates), ("dropped", toString dropped),
      ("lookups", toString lookups)]
  | .conditionsUndecodable error encoded => [("error", error), ("encoded", encoded)]
  | .noAttributeSet => []
  | .widgetConditionDropped field reason => [("field", field), ("reason", reason)]

end Event

/-! ## Values with events -/

structure Noted (α : Type) where
  value : α
  events : List Event := []

namespace Noted

instance : Monad Noted where
  pure a := ⟨a, []⟩
  bind x f := ⟨(f x.value).value, x.events ++ (f x.value).events⟩

/-- A value that comes with one event. -/
def note {α : Type} (e : Event) (a : α) : Noted α := ⟨a, [e]⟩

variable {α β : Type}

theorem mk_append_nil (x : Noted α) : (⟨x.value, x.events ++ []⟩ : Noted α) = x := by
  cases x
  simp

instance : LawfulMonad Noted := LawfulMonad.mk' Noted
  (fun x => mk_append_nil x)
  (fun _ _ => rfl)
  (fun x f g => congrArg (Noted.mk _) (List.append_assoc x.events (f x.value).events (g (f x.value).value).events))

@[simp] theorem value_pure (a : α) : (pure a : Noted α).value = a := rfl

@[simp] theorem value_bind (x : Noted α) (f : α → Noted β) : (x >>= f).value = (f x.value).value := rfl

@[simp] theorem value_map (f : α → β) (x : Noted α) : (f <$> x).value = f x.value := rfl

@[simp] theorem value_mapM (f : α → Noted β) (xs : List α) : (xs.mapM f).value = xs.map fun x => (f x).value := by
  induction xs with
  | nil => rfl
  | cons x rest ih => simp [List.mapM_cons, ih]

end Noted

end RulePlan
