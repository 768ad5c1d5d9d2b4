import ImageGallery.Json.Reader
import ImageGallery.Json.Printer
import ImageGallery.Text.Blank
import ImageGallery.Text.Fields
import ImageGallery.Error
import ImageGallery.Image
import ImageGallery.Segment
import ImageGallery.Json.Record
import ImageGallery.Order.LooseInt
import ImageGallery.Order.Payload
import ImageGallery.Order.Ranks
import ImageGallery.Disk.Tree
import ImageGallery.Blob.Local
import ImageGallery.Clock
import ImageGallery.Store.Database
import ImageGallery.Store.Memory
import ImageGallery.Counters
import ImageGallery.Manager
import ImageGallery.Audit
import ImageGallery.Export
import ImageGallery.Store.File
import ImageGallery.Http.ContentType
import ImageGallery.Text.PercentEncoding
import ImageGallery.Http.Form
import ImageGallery.Http.Message
import ImageGallery.Http.PathLabel
import ImageGallery.Http.Description
import ImageGallery.Http.Service
import ImageGallery.Yaml.Cursor
import ImageGallery.Yaml.Node
import ImageGallery.Yaml.Scalar
import ImageGallery.Yaml.Reader
import ImageGallery.Config
import ImageGallery.Config.Limits
import ImageGallery.Admin.Arguments
import ImageGallery.Admin.Run
import ImageGallery.Main
import ImageGallery.Proofs.DisplayOrder
import ImageGallery.Proofs.Draft
import ImageGallery.Store.Fallible
import ImageGallery.Proofs.Stores
import ImageGallery.Proofs.Atomicity
import ImageGallery.Proofs.Durability
import ImageGallery.Proofs.Reordering
import ImageGallery.Proofs.Containment
import ImageGallery.Proofs.Agreement
import ImageGallery.Proofs.Auditing
import ImageGallery.Proofs.Transactions
import ImageGallery.Proofs.Adapter
import ImageGallery.Proofs.Identifiers
import ImageGallery.Proofs.Exporting
import ImageGallery.Proofs.FormUploads
import ImageGallery.Proofs.SingleCover
import ImageGallery.Proofs.Registration
import ImageGallery.Proofs.Accounting
import ImageGallery.Proofs.Completion
import ImageGallery.Proofs.Uploading
import ImageGallery.Proofs.DeletionOrder
import ImageGallery.Proofs.Coercion
import ImageGallery.Proofs.CrashSafety
import ImageGallery.Proofs.KeyResolution
import ImageGallery.Proofs.FullPayload
import ImageGallery.Proofs.BlobContents
import ImageGallery.Proofs.SingleUploads
import ImageGallery.Proofs.PayloadValidation
import ImageGallery.Proofs.Confinement
import ImageGallery.Proofs.Covering
import ImageGallery.Proofs.JsonFuel
import ImageGallery.Proofs.IgnoredSpellings
import ImageGallery.Proofs.PathLabels
import ImageGallery.Proofs.Truncations
import ImageGallery.Proofs.OrderArithmetic
import ImageGallery.Proofs.YamlPauses
import ImageGallery.Proofs.YamlSpellings
import ImageGallery.Proofs.YamlBlocks
import ImageGallery.Proofs.YamlTokens
import ImageGallery.Proofs.YamlDocuments
import ImageGallery.Proofs.ConfigFields
import ImageGallery.Proofs.ConfigReading
import ImageGallery.Proofs.ConfigWriting
import ImageGallery.Proofs.ConfigTexts
import ImageGallery.Proofs.ChunkedReading
import ImageGallery.Proofs.RankPlans
import ImageGallery.Proofs.AuditLines
