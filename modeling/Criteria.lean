import Criteria.Export.Document
import Criteria.Json.Read
import Criteria.Parse
import Criteria.Proofs.Acceptance
import Criteria.Proofs.Assembly.History
import Criteria.Proofs.Documents
import Criteria.Proofs.Equality
import Criteria.Proofs.FieldNames
import Criteria.Proofs.Lookahead
import Criteria.Proofs.Marker
import Criteria.Proofs.Nesting
import Criteria.Proofs.Positions
import Criteria.Proofs.Privacy
import Criteria.Proofs.Progress
import Criteria.Proofs.Quotes
import Criteria.Proofs.Rollback
import Criteria.Proofs.RoundTrip
import Criteria.Proofs.Siblings
import Criteria.Proofs.Skipping
import Criteria.Proofs.Stored
import Criteria.Proofs.WholeNumbers
import Criteria.Stored.Group
import Criteria.Stored.Report
