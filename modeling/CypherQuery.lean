import CypherQuery.Build.Call
import CypherQuery.Example.Queries
import CypherQuery.Proofs.PatternText.Reparsing
import CypherQuery.Query.Execution
import CypherQuery.Proofs.Build.Stage
import CypherQuery.Proofs.Build.Staging
import CypherQuery.Proofs.Render.Nesting
import CypherQuery.Proofs.Condition.Symbols
import CypherQuery.Proofs.Condition.Reading
import CypherQuery.Proofs.Condition.Readability
import CypherQuery.Proofs.Build.Fault
import CypherQuery.Proofs.Example.Opacity
import CypherQuery.Proofs.Example.Agreement
import CypherQuery.Proofs.Traversal.Protocol
import CypherQuery.Proofs.PatternText.Earliest
import CypherQuery.Proofs.Query.Preparing
import CypherQuery.Proofs.Render.Layout
import CypherQuery.Proofs.Query.Allocation
import CypherQuery.Proofs.Example.Pages
import CypherQuery.Proofs.Build.Locality
import CypherQuery.Proofs.Condition.Precedence
import CypherQuery.Proofs.Traversal.Occurrence
import CypherQuery.Proofs.Token.Lexeme
import CypherQuery.Proofs.Token.Coverage
import CypherQuery.Proofs.PatternText.Spacing
import CypherQuery.Proofs.PatternText.Obstacles
