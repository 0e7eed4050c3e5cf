import CommandSuite.Text.Indent

/-!
# Framed texts

A text set into a frame, so that its blank lines and its end can be seen. The bottom of the frame
tells whether the text ends with a line feed.
-/

namespace CommandSuite.Report

/-- The text in a frame, one line of it to a row. -/
def frame (s : String) : String :=
  "╭\n" ++ Text.indentWith "│ " s ++
    if Text.endsLine s.toList then "╰" else "\n╰ (No newline at end)"

end CommandSuite.Report
