import ThriftIdl.Main
import ThriftIdl.Source.Scanner
import ThriftIdl.Syntax.Equality
import ThriftIdl.Proofs.Command.Agreement
import ThriftIdl.Proofs.Comment.Snapshots
import ThriftIdl.Proofs.Error.SyntaxError
import ThriftIdl.Proofs.Layout.Attribution
import ThriftIdl.Proofs.Layout.Gaps
import ThriftIdl.Proofs.Layout.RoundTrip
import ThriftIdl.Proofs.Reading.BestMiss
import ThriftIdl.Proofs.Reading.Enumerations
import ThriftIdl.Proofs.Reading.HeadComments
import ThriftIdl.Proofs.Reading.Includes
import ThriftIdl.Proofs.Reading.Integers
import ThriftIdl.Proofs.Reading.LineEnding
import ThriftIdl.Proofs.Reading.Options
import ThriftIdl.Proofs.Reading.Progress
import ThriftIdl.Proofs.Reading.Quotes
import ThriftIdl.Proofs.Reading.Runs
import ThriftIdl.Proofs.Reading.Store
import ThriftIdl.Proofs.Reading.TailComments
