/-
# Notes

While it works, the library writes notes for whoever watches it: what went over the link,
which exchange is repeated, what a tag answered.  A note is a line of text with a level, and
a watcher chooses the least urgent level that it wants to see.
-/
namespace TagReader

/-- How urgent a note is, most urgent first. -/
inductive Level where
  | error
  | warn
  | info
  | debug
  | trace
deriving DecidableEq

namespace Level

/-- The place of a level in the order, most urgent first. -/
def rank : Level → Nat
  | error => 1
  | warn => 2
  | info => 3
  | debug => 4
  | trace => 5

/-- The level as it is written in front of a note. -/
def label : Level → String
  | error => "ERROR"
  | warn => "WARN"
  | info => "INFO"
  | debug => "DEBUG"
  | trace => "TRACE"

/-- The level of a name, by which a watcher asks for it. -/
def ofName? : String → Option Level
  | "error" => some error
  | "warn" => some warn
  | "info" => some info
  | "debug" => some debug
  | "trace" => some trace
  | _ => none

end Level

/-- One line for the watcher. -/
structure Note where
  /-- How urgent it is. -/
  level : Level
  /-- What it says. -/
  text : String
deriving DecidableEq

namespace Note

/-- The line written for a note. -/
def line (n : Note) : String := n.level.label ++ " " ++ n.text

/-- Whether a note is seen by a watcher whose least urgent level is given. -/
def visible (least : Level) (n : Note) : Bool := n.level.rank ≤ least.rank

end Note

end TagReader
