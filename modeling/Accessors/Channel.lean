/-! The report channel: where misuse of a property is announced. A report never stops a
call by itself; it goes to the installed handler, and only in strict mode does it turn
into an error as well. -/

namespace Accessors

inductive ReportKind where
  | typeError
  | error
deriving DecidableEq

def ReportKind.name : ReportKind → String
  | typeError => "typeError"
  | error => "error"

structure Report where
  kind : ReportKind
  text : String
deriving DecidableEq

/-- A handler gets every report while it is installed. It removes itself or stays as it
likes, by what was delivered before and by the report. It has no part in the strict flag or
in anything else that calls depend on. -/
inductive Handler where
  | absent
  | installed (stays : List Report → Report → Bool)

namespace Handler

def collect : Handler := installed fun _ _ => true

def collectOnce : Handler := installed fun _ _ => false

end Handler

structure Channel where
  strict : Bool
  handler : Handler
  delivered : List Report

/-- A channel whose handler collects everything. -/
def Channel.initial : Channel := ⟨false, .collect, []⟩

/-- Hands a report to the handler. -/
def Channel.deliver (c : Channel) (report : Report) : Channel :=
  match c.handler with
  | .absent => c
  | .installed stays =>
    { c with
      delivered := c.delivered ++ [report]
      handler := if stays c.delivered report then c.handler else .absent }

theorem Channel.deliver_strict (c : Channel) (report : Report) :
    (c.deliver report).strict = c.strict := by
  unfold deliver
  split <;> rfl

end Accessors
