import Bibliograph.Main
import Bibliograph.Proofs.Entry.Ancestry
import Bibliograph.Proofs.Loading.Unfolding
import Bibliograph.Proofs.Search.Ancestor
import Bibliograph.Proofs.Selector.Height
import Bibliograph.Proofs.Selector.Misfit
import Bibliograph.Proofs.Selector.ReadBack
import Bibliograph.Proofs.Search.Shallow
import Bibliograph.Proofs.Entry.Equality
import Bibliograph.Proofs.Entry.Nearest
import Bibliograph.Proofs.Search.Equality
import Bibliograph.Proofs.Entry.Growth
import Bibliograph.Proofs.Search.Monotone
import Bibliograph.Library.Request
import Bibliograph.Proofs.Library.History
import Bibliograph.Proofs.Entry.Asked
import Bibliograph.Proofs.Entry.Queue
import Bibliograph.Proofs.Loading.Declared
import Bibliograph.Proofs.Loading.Equality
import Bibliograph.Proofs.Loading.FieldNames
import Bibliograph.Proofs.Loading.Typed
import Bibliograph.Proofs.Loading.WellFormed
import Bibliograph.Proofs.Yaml.Repetition
import Bibliograph.Proofs.TypeSpec.Assignment
import Bibliograph.Proofs.TypeSpec.Order
import Bibliograph.Proofs.TypeSpec.Rearrangement
import Bibliograph.Proofs.Selector.Captures
import Bibliograph.Proofs.Selector.Unbalanced
import Bibliograph.Proofs.Search.Witness
import Bibliograph.Proofs.Date
import Bibliograph.Proofs.Person
import Bibliograph.Proofs.Search.Sharing
import Bibliograph.Proofs.Selector.Depth
import Bibliograph.Proofs.Selector.Naming
import Bibliograph.Proofs.Selector.Session
