import SchemaSnapshot.Collection.OrderedMap
import SchemaSnapshot.Collection.OrderedSet
import SchemaSnapshot.Dialect
import SchemaSnapshot.Entity
import SchemaSnapshot.Json
import SchemaSnapshot.Proofs.Agreement
import SchemaSnapshot.Proofs.Attempts
import SchemaSnapshot.Proofs.Bookkeeping
import SchemaSnapshot.Proofs.Columns
import SchemaSnapshot.Proofs.Contents
import SchemaSnapshot.Proofs.Course
import SchemaSnapshot.Proofs.Defaults
import SchemaSnapshot.Proofs.EntityOrder
import SchemaSnapshot.Proofs.Exclusion
import SchemaSnapshot.Proofs.FirstClaim
import SchemaSnapshot.Proofs.ForeignKeys
import SchemaSnapshot.Proofs.Grouping
import SchemaSnapshot.Proofs.Indexes
import SchemaSnapshot.Proofs.JsonText
import SchemaSnapshot.Proofs.Lookup
import SchemaSnapshot.Proofs.Names
import SchemaSnapshot.Proofs.Noise
import SchemaSnapshot.Proofs.OrderIndependence
import SchemaSnapshot.Proofs.Ordered
import SchemaSnapshot.Proofs.Outcome
import SchemaSnapshot.Proofs.Ownership
import SchemaSnapshot.Proofs.Positions
import SchemaSnapshot.Proofs.PrimaryKeys
import SchemaSnapshot.Proofs.QualifiedNames
import SchemaSnapshot.Proofs.Rearrangement
import SchemaSnapshot.Proofs.RoundTrip
import SchemaSnapshot.Proofs.SnapshotText
import SchemaSnapshot.Proofs.Sqlite.Closure
import SchemaSnapshot.Proofs.Sqlite.Containers
import SchemaSnapshot.Proofs.Sqlite.DeclaredTypes
import SchemaSnapshot.Proofs.Sqlite.Exclusion
import SchemaSnapshot.Proofs.Sqlite.ForeignKeys
import SchemaSnapshot.Proofs.Sqlite.Indexes
import SchemaSnapshot.Proofs.Sqlite.KeyListing
import SchemaSnapshot.Proofs.Sqlite.LetterCase
import SchemaSnapshot.Proofs.Sqlite.Loading
import SchemaSnapshot.Proofs.Sqlite.PrimaryKeys
import SchemaSnapshot.Proofs.Sqlite.Queries
import SchemaSnapshot.Proofs.Sqlite.Scoping
import SchemaSnapshot.Reading
import SchemaSnapshot.Reading.Containers
import SchemaSnapshot.Reading.Reader
import SchemaSnapshot.Snapshot
import SchemaSnapshot.Snapshot.Form
import SchemaSnapshot.Source
import SchemaSnapshot.Sqlite.Catalog
import SchemaSnapshot.Sqlite.Loading
import SchemaSnapshot.Sqlite.Metadata
import SchemaSnapshot.Text
import SchemaSnapshot.Text.Case
import SchemaSnapshot.Traced
