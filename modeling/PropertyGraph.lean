import PropertyGraph.Graph.Ledger
import PropertyGraph.Main
import PropertyGraph.Proofs.Decimal.Numerals
import PropertyGraph.Proofs.Graph.AnyOrder
import PropertyGraph.Proofs.Graph.Bookkeeping
import PropertyGraph.Proofs.Graph.Canonical
import PropertyGraph.Proofs.Graph.Commuting
import PropertyGraph.Proofs.Graph.Counting
import PropertyGraph.Proofs.Graph.Dismantling
import PropertyGraph.Proofs.Graph.Loading
import PropertyGraph.Proofs.Graph.Refusals
import PropertyGraph.Proofs.Graph.Reversal
import PropertyGraph.Proofs.Graph.Truncation
import PropertyGraph.Proofs.Query.Answers
import PropertyGraph.Proofs.Query.Composition
import PropertyGraph.Proofs.Query.Expressible
import PropertyGraph.Proofs.Query.Faults
import PropertyGraph.Proofs.Query.Integers
import PropertyGraph.Proofs.Query.Likeness
import PropertyGraph.Proofs.Query.Respelling
import PropertyGraph.Proofs.Query.RoundTrip
import PropertyGraph.Proofs.Session.Persistence
import PropertyGraph.Proofs.Traversal
import PropertyGraph.Proofs.Values.Payloads
import PropertyGraph.Snapshot
