import ImageGallery.Image

/-!
# Configuration

The settings of the program, by section. Every setting has a value that it takes when the
configuration does not mention it.
-/

namespace ImageGallery

/-- Settings of the HTTP server. -/
structure ServerConfig where
  host : String := "0.0.0.0"
  port : Nat := 9020
  /-- The seconds that open requests are waited for. -/
  shutdownTimeout : Nat := 30
  /-- The greatest number of bytes in the body of a request. -/
  maxBodyBytes : Nat := 104857600
deriving DecidableEq, Inhabited

/-- Settings of the metadata store. -/
structure MetadataConfig where
  /-- The path of the database. -/
  databasePath : String := "./data/gallery.db"
deriving DecidableEq, Inhabited

/-- Settings of the blob store. -/
structure StorageConfig where
  /-- The directory that all files are kept under. -/
  rootDirectory : String := "./data/images"
  /-- The size of the buffer that uploads are read through. -/
  chunkSize : Nat := 65536
deriving DecidableEq, Inhabited

/-- Limits of galleries, and the address of images. -/
structure GalleryConfig where
  maxFilesPerRequest : Nat := 10
  maxImagesPerParent : Nat := 30
  publicBaseUrl : String := "/images"
deriving DecidableEq, Inhabited

/-- Settings of the log. -/
structure LoggingConfig where
  level : String := "info"
  format : String := "text"
deriving DecidableEq, Inhabited

/-- Settings of what can be observed from outside. -/
structure ObservabilityConfig where
  /-- Whether requests are counted and the counters are served. -/
  metrics : Bool := true
deriving DecidableEq, Inhabited

/-- A whole configuration. -/
structure Config where
  server : ServerConfig := {}
  metadata : MetadataConfig := {}
  storage : StorageConfig := {}
  gallery : GalleryConfig := {}
  logging : LoggingConfig := {}
  observability : ObservabilityConfig := {}
deriving DecidableEq, Inhabited

/-- The options that the manager works with. -/
def GalleryConfig.options (config : GalleryConfig) : GalleryOptions where
  maxFilesPerRequest := config.maxFilesPerRequest
  maxImagesPerParent := config.maxImagesPerParent.toUInt32
  publicBaseUrl := config.publicBaseUrl

end ImageGallery
