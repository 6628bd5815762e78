import Wali.AliasResolution
import Wali.InsertionDict
import Wali.RunOutcome
import Wali.PythonText
import Wali.TypeTemplates
import Wali.SyscallTable
import Wali.ArgumentTypes
import Wali.StubEmission
import Wali.LibcStubs
import Wali.WamrStubs
import Wali.WitStubs
import Wali.MarkdownStubs
import Wali.StubAgreement
import Wali.RowLocality
import Wali.PointerTranslation
import Wali.ScalarTypes
import Wali.WitResolution
import Wali.PathNormalisation
import Wali.PythonFormat
import Wali.VariableExpansion
import Wali.ToolchainFiles
import Wali.ToolchainLocations
import Wali.RecordDeclarations
import Wali.WitScoping
import Wali.CanonicalOrder
import Wali.SyscallDesc
import Wali.ParseSyscalls
import Wali.TraceMerge
import Wali.SupportPartition
import Wali.NestedTables
import Wali.RustConfig
import Wali.ConfigFrame
import Wali.WitNames
import Wali.FlagRendering
import Wali.RegexMatching
import Wali.TypeFile
import Wali.ArrayExpansion
import Wali.ArrayMatching
import Wali.ArrayTuples
import Wali.ArchDiff
import Wali.FileRuns
import Wali.TextReplace
import Wali.TemplateFilling
import Wali.TypesInterface
import Wali.AutogenRun
import Wali.ResumedRuns
import Wali.RustReruns
import Wali.LineForms
import Wali.MatchBoundaries
import Wali.SyscallListFile
import Wali.StubTexts
import Wali.SyscallsInterface
import Wali.IndentedText
import Wali.AssignmentLines
import Wali.ToolchainTexts
