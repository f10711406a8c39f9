import Abacus.Event
import Abacus.Log.Directive

/-!
The log: which events a filter shows, and how they are written. An event comes from a part of the
program, its target, and carries a message and named fields.
-/
namespace Abacus

namespace Event

/-- The least verbosity that shows an event. -/
def verbosity : Event → Verbosity
  | tokenized _ | parsed _ | declared _ _ _ => .debug
  | pushed _ | popped _ | calling _ _ _ => .trace

/-- The part of the program that an event comes from. -/
def target : Event → String
  | tokenized _ => "tally::interpreter::lexer"
  | parsed _ => "tally::interpreter::parser::core"
  | declared _ _ _ | pushed _ | popped _ => "tally::interpreter::evaluator::scope"
  | calling _ _ _ => "tally::interpreter::evaluator::function::core"

def message : Event → String
  | tokenized _ => "tokenized source"
  | parsed _ => "parsed program"
  | declared _ _ _ => "declared variable"
  | pushed _ => "pushed scope"
  | popped _ => "popped scope"
  | calling _ _ _ => "calling native function"

/-- The fields of an event and their texts. -/
def fields : Event → List (String × String)
  | tokenized count => [("count", toString count)]
  | parsed statements => [("statements", toString statements)]
  | declared name value depth =>
    [("variable", "\"" ++ name ++ "\""), ("value", value.text), ("depth", toString depth)]
  | pushed depth | popped depth => [("depth", toString depth)]
  | calling name arguments line =>
    [("function", "\"" ++ name ++ "\""), ("args", toString arguments), ("line", toString line)]

/-- The names that a directive may ask for. The message counts as a field. -/
def fieldNames (e : Event) : List String :=
  "message" :: e.fields.map (·.1)

/-- How the log writes the verbosity of an event. -/
def label (e : Event) : String :=
  match e.verbosity with
  | .trace => "TRACE"
  | _ => "DEBUG"

/-- The line of the log for an event. -/
def text (e : Event) : String :=
  e.label ++ " " ++ e.target ++ ": " ++ e.message ++
    String.join (e.fields.map fun (name, value) => " " ++ name ++ "=" ++ value)

end Event

namespace Log

/-- Whether a directive speaks of an event. There are no spans, so one that asks for a span, or for
the value of a field of one, speaks of none. -/
def Directive.concerns (d : Directive) (e : Event) : Bool :=
  d.span.isNone && d.target.isPrefixOf e.target.toList &&
    d.field.all fun field =>
      field.value.isNone && e.fieldNames.contains (String.ofList field.name)

namespace Filter

/-- The directive that decides on an event: of those that speak of it the most specific one, and of
equally specific ones the last. -/
def deciding? (f : Filter) (e : Event) : Option Directive :=
  (f.directives.filter (·.concerns e)).foldl
    (fun best d =>
      match best with
      | none => some d
      | some b => if b.outranks d then some b else some d)
    none

def shows (f : Filter) (e : Event) : Bool :=
  match f.deciding? e with
  | none => false
  | some d => e.verbosity.rank ≤ d.level.rank

/-- The log lines for some events. -/
def lines (f : Filter) (events : List Event) : List String :=
  (events.filter f.shows).map Event.text

end Filter

end Log

end Abacus
