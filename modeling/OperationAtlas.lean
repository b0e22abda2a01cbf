import OperationAtlas.Access
import OperationAtlas.Catalog
import OperationAtlas.CommandLine
import OperationAtlas.Config
import OperationAtlas.Host.Decode
import OperationAtlas.Host.Types
import OperationAtlas.Json.Draft
import OperationAtlas.Json.Printer
import OperationAtlas.Main
import OperationAtlas.Naming
import OperationAtlas.Page
import OperationAtlas.Page.Reader
import OperationAtlas.Project
import OperationAtlas.Proofs.Access
import OperationAtlas.Proofs.Catalog
import OperationAtlas.Proofs.Catalog.Additions
import OperationAtlas.Proofs.Catalog.Defects
import OperationAtlas.Proofs.Catalog.Lookups
import OperationAtlas.Proofs.Catalog.Pages
import OperationAtlas.Proofs.Catalog.Records
import OperationAtlas.Proofs.Catalog.Responses
import OperationAtlas.Proofs.CommandLine
import OperationAtlas.Proofs.Files.Listing
import OperationAtlas.Proofs.Host.Canonical
import OperationAtlas.Proofs.Host.Extensions
import OperationAtlas.Proofs.Host.Inheritance
import OperationAtlas.Proofs.Host.Spelling
import OperationAtlas.Proofs.Json.Reading
import OperationAtlas.Proofs.Json.Scalars
import OperationAtlas.Proofs.Naming
import OperationAtlas.Proofs.Project
import OperationAtlas.Proofs.Sample.Arguments
import OperationAtlas.Proofs.Sample.Overrides
import OperationAtlas.Proofs.Schema.Merging
import OperationAtlas.Proofs.SchemaFiles
import OperationAtlas.Proofs.Session.Depth
import OperationAtlas.Proofs.Session.Extensions
import OperationAtlas.Proofs.Session.Independence
import OperationAtlas.Sample.Ledger
import OperationAtlas.Schema.Index
import OperationAtlas.SchemaFiles
