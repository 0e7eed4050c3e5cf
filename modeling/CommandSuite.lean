import CommandSuite.Main
import CommandSuite.Proofs.CommandLine
import CommandSuite.Proofs.ExitCode
import CommandSuite.Proofs.Path.Location
import CommandSuite.Proofs.Registry.History
import CommandSuite.Proofs.Report.Attribution
import CommandSuite.Proofs.Report.Tap
import CommandSuite.Proofs.Suite.Validation
import CommandSuite.Proofs.SuiteFiles
import CommandSuite.Proofs.SuiteFiles.Directories
import CommandSuite.Proofs.SuiteFiles.Distinct
import CommandSuite.Proofs.SuiteFiles.Nesting
import CommandSuite.Proofs.Verdict
import CommandSuite.Proofs.EmptyCommand
import CommandSuite.Proofs.Tree
import CommandSuite.Proofs.Report.Frame
import CommandSuite.Proofs.Report.Sections
import CommandSuite.Proofs.Report.Diagnostics
import CommandSuite.Proofs.Report.Directive
import CommandSuite.Proofs.Report.Message
import CommandSuite.Proofs.CompilerCommand
import CommandSuite.Proofs.Report.FrameReader
import CommandSuite.Proofs.Executable
import CommandSuite.Proofs.Executable.Start
import CommandSuite.Proofs.Report.Columns
