import Tabular.Main
import Tabular.Proofs.Statement.Reader
import Tabular.Proofs.Token.Faithful
import Tabular.Proofs.Statement.Replacing
import Tabular.Proofs.Statement.RoundTrip
import Tabular.Proofs.Schema.Rows
import Tabular.Proofs.Table.Aligned
import Tabular.Proofs.Schema.Definition
import Tabular.Proofs.Session.Step
import Tabular.Proofs.Session.Effects
import Tabular.Proofs.Text.Lowercase
import Tabular.Proofs.Token.Exchange
import Tabular.Proofs.Statement.EngineWord
import Tabular.Proofs.Session.Engines
import Tabular.Proofs.Text.Integer
import Tabular.Proofs.Token.Identifier
import Tabular.Proofs.Schema.Values
import Tabular.Proofs.Table.Places
import Tabular.Proofs.Session.Representation
import Tabular.Proofs.Session.Catalog
import Tabular.Proofs.Session.Restoring
import Tabular.Proofs.Session.Separation
import Tabular.Proofs.Token.Offset
import Tabular.Proofs.Statement.Fault
import Tabular.Proofs.Table.Selecting
import Tabular.Proofs.Session.Messages
import Tabular.Proofs.Server.Requests
import Tabular.Proofs.Session.Replies
import Tabular.Proofs.Server.Framing
import Tabular.Proofs.Text.Encoding
import Tabular.Proofs.Server.Sending
import Tabular.Proofs.Repl.Agreement
import Tabular.Proofs.Table.Inserting
import Tabular.Proofs.Token.Coverage
import Tabular.Proofs.Token.Layout
import Tabular.Proofs.Server.Folding
import Tabular.Proofs.Text.Decoding
import Tabular.Proofs.Server.Pieces
import Tabular.Proofs.Table.Appending
import Tabular.Proofs.Session.Decoding
import Tabular.Proofs.Session.Showing
import Tabular.Proofs.Server.Pointing
import Tabular.Proofs.Table.Checking
