import CommandSuite.Proofs.Report.Sections

/-!
# What is reported of a suite file

The report on a suite file that gives no cases is a tree below the path of the file. It says for
the file as a whole what is wrong, and then what the fault of its document is, or for each of its
entries that make no case which problems this has.

* `SuiteError.texts` are the texts of the branches, from the top down.
* `SuiteError.Reports` says what a report is, and `SuiteError.reports_report` that this is what is
  printed.
-/

namespace CommandSuite

namespace SuiteError

/-- What is said of the error below the path of its file, row by row. -/
def texts : SuiteError → List String
  | unreadable _ => ["❌ Failed to read file"]
  | malformed fault => "❌ Failed to parse suite file" :: Text.displayLines fault.message
  | invalid problems => "Validation errors" :: problems.flatMap fun (name, problems) =>
      name :: problems.map fun problem => "❌ " ++ problem.message

/-- The text reports the error of a file: its first row shows the path, and behind marks the rows
below say what is wrong; a blank line ends it. -/
structure Reports (error : SuiteError) (path report : String) : Prop where
  written : report =
    "📋 " ++ path ++ "\n" ++ Tree.write (Tree.childRows error.trees) ++ "\n"
  texts : (Tree.childRows error.trees).map Tree.Row.text = error.texts
  marked : ∀ row ∈ Tree.childRows error.trees, IsMarked row.margin.toList

/-- The rows below the path say what the error is. -/
theorem map_text_childRows_trees (error : SuiteError) :
    (Tree.childRows error.trees).map Tree.Row.text = error.texts := by
  rw [Tree.map_text_childRows]
  cases error with
  | unreadable cause => rfl
  | malformed fault =>
    rw [trees, List.flatMap_singleton, Tree.texts_node, List.flatMap_singleton, Tree.texts_leaf,
      texts]
  | invalid problems =>
    rw [trees, List.flatMap_singleton, Tree.texts_node, List.flatMap_map, texts]
    congr 2
    funext entry
    obtain ⟨name, problems⟩ := entry
    rw [Tree.texts_node, List.flatMap_map]
    simp only [Tree.texts_leaf]
    rw [← List.map_eq_flatMap]

theorem reports_report (error : SuiteError) (path : String) :
    error.Reports path (error.report path) where
  written := by
    have filled : (Tree.node ("📋 " ++ path) error.trees).Filled :=
      .node fun _ => filled_of_mem_trees
    rw [report, errorReport, Tree.draw_eq_write filled, Tree.rows, Tree.write_cons, Tree.Row.line,
      String.empty_append]
  texts := error.map_text_childRows_trees
  marked _ := Tree.isMarked_margin

end SuiteError

/-- A report of one message shows it behind a mark, below its heading. -/
theorem messageReport_eq (heading message : String) :
    messageReport heading message = heading ++ "\n└─ " ++ message ++ "\n\n" := by
  have mark : "\n└─ " = "\n" ++ "└─ " := by decide
  have ending : "\n\n" = "\n" ++ "\n" := by decide
  rw [messageReport, errorReport, Tree.draw_eq_write (Tree.filled_line heading message), mark,
    ending]
  simp only [Tree.rows, Tree.childRows, Tree.hang, Tree.write, Tree.Row.line, Tree.Row.behind,
    List.map_cons, List.map_nil, String.join_cons, String.join_nil, String.append_assoc,
    String.empty_append, String.append_empty]

end CommandSuite
