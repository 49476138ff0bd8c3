import LoopEscape.Generate.Expand
import LoopEscape.Text.Json

/-!
# Summaries as JSON

What is told about every callback loop of a program, in a fixed order of fields.
-/

namespace LoopEscape

open Text

def CallSummary.json : CallSummary → Json
  | .free callee args =>
    .record [("kind", .text "free"), ("callee", .text callee), ("args", .texts args)]
  | .method receiver name typeArgs args =>
    .record [("kind", .text "method"), ("receiver", .text receiver), ("method", .text name),
      ("type_args", .optional typeArgs), ("args", .texts args)]

def EscapeLabel.json (e : EscapeLabel) : Json :=
  .record [("label", .text e.label), ("accepts_continue", .bool e.loops)]

def LoopSummary.json (s : LoopSummary) : Json :=
  .record
    [("id", .nat s.taxonomy.id), ("lineno", .nat s.loc.span.line),
     ("col_offset", .nat s.loc.span.col), ("loop_label", .optional s.header.label),
     ("binding", .text s.binding), ("source_call", s.call.json),
     ("escape_labels", .list (s.header.escapes.map EscapeLabel.json)),
     ("result", .optional s.header.result), ("task", .text s.taxonomy.names.task),
     ("global", .texts s.declared.globals), ("nonlocal", .texts s.declared.nonlocals),
     ("variants", .texts (s.taxonomy.variants.map EscapeReason.text)),
     ("break_vars", .record (s.taxonomy.breakVars.map fun (l, v) => (l, .text v)))]

def loopsJson (summaries : List LoopSummary) : Json := .list (summaries.map LoopSummary.json)

end LoopEscape
