import ScriptOutline.Main
import ScriptOutline.Proofs.Advance
import ScriptOutline.Proofs.Forest
import ScriptOutline.Proofs.Place
import ScriptOutline.Proofs.Span
import ScriptOutline.Proofs.StatementSpan
import ScriptOutline.Proofs.ScriptSpan
import ScriptOutline.Proofs.Progression
import ScriptOutline.Proofs.Conservation
import ScriptOutline.Proofs.Conversion
import ScriptOutline.Proofs.SessionOutline
import ScriptOutline.Proofs.Backing
import ScriptOutline.Proofs.Layout
import ScriptOutline.Proofs.Site
import ScriptOutline.Proofs.Analysis
import ScriptOutline.Proofs.Climbing
import ScriptOutline.Proofs.Lexical
import ScriptOutline.Proofs.Operand
import ScriptOutline.Proofs.Precedence
import ScriptOutline.Proofs.Reading
import ScriptOutline.Proofs.Resolution
import ScriptOutline.Proofs.Yield
import ScriptOutline.Proofs.Tidy
import ScriptOutline.Proofs.TidyScript
import ScriptOutline.Proofs.Rebinding
import ScriptOutline.Proofs.Retry
import ScriptOutline.Proofs.Settled
import ScriptOutline.Proofs.Complete
import ScriptOutline.Proofs.Counterpart
import ScriptOutline.Proofs.SettledOutline
import ScriptOutline.Proofs.Signs
import ScriptOutline.Proofs.Connective
import ScriptOutline.Proofs.Formula
import ScriptOutline.Proofs.ReadBack
import ScriptOutline.Proofs.Revision
import ScriptOutline.Proofs.StaticCalls
import ScriptOutline.Proofs.Everywhere
import ScriptOutline.Proofs.Doubled
import ScriptOutline.Proofs.Reset
import ScriptOutline.Proofs.Additions
import ScriptOutline.Proofs.Moved
import ScriptOutline.Proofs.MovedExpression
import ScriptOutline.Proofs.MovedStatement
import ScriptOutline.Proofs.MovedScript
import ScriptOutline.Proofs.Filler
import ScriptOutline.Proofs.Accessor
import ScriptOutline.Proofs.Offence
import ScriptOutline.Proofs.Report
import ScriptOutline.Proofs.Implied
import ScriptOutline.Proofs.Declared
import ScriptOutline.Proofs.Agreement
import ScriptOutline.Proofs.Variation
import ScriptOutline.Proofs.Indifference
import ScriptOutline.Proofs.Defaults
import ScriptOutline.Proofs.Inference
import ScriptOutline.Proofs.Passage
import ScriptOutline.Proofs.Annotated
import ScriptOutline.Proofs.ArrayType
import ScriptOutline.Proofs.MemberSign
import ScriptOutline.Proofs.Literal
import ScriptOutline.Proofs.DigitRun
import ScriptOutline.Proofs.TextLiteral
import ScriptOutline.Proofs.Readable
import ScriptOutline.Proofs.ReadableScript
import ScriptOutline.Proofs.KeywordName
import ScriptOutline.Proofs.Persistent
import ScriptOutline.Proofs.WalkOrder
import ScriptOutline.Proofs.Paths
import ScriptOutline.Proofs.TemplateSegment
import ScriptOutline.Proofs.TypedDeclaration
import ScriptOutline.Proofs.Counts
import ScriptOutline.Proofs.RenderedLines
import ScriptOutline.Proofs.RowTable
import ScriptOutline.Proofs.PhaseRequest
import ScriptOutline.Proofs.ScriptName
import ScriptOutline.Proofs.Termination
