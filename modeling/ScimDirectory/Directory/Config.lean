import ScimDirectory.Directory.Hook
import ScimDirectory.Text.Truth

/-!
# Configuration

The settings of a directory. They are checked once, before the directory is used.
-/

namespace ScimDirectory

/-- The URL under which resources are found. -/
structure ServiceRoot where
  /-- The URL of the service. -/
  baseUrl : String
  /-- The path segment of the protocol version. -/
  version : String
  deriving DecidableEq

/-- The URL of a resource. -/
def ServiceRoot.url (root : ServiceRoot) (type : ResourceType) (id : String) : String :=
  Meta.locationUnder (Meta.dropSlashes root.baseUrl ++ "/" ++ root.version) type.endpoint id

/-- The settings of a directory. -/
structure Config where
  /-- The URL under which resources are found. -/
  root : ServiceRoot
  /-- The salt of versions; a random one is drawn when it is left open. -/
  salt : Option (List UInt8)
  /-- The greatest number of resources that one search returns. -/
  maxResults : Nat
  /-- The number of resources that a search returns when it does not say. -/
  defaultPageSize : Nat
  /-- Whether a patch gives the resource a new version. -/
  restampOnPatch : Bool
  /-- The hooks, in the order in which they run. -/
  hooks : List Hook

/-- Why settings cannot be used. -/
inductive ConfigError where
  /-- There is no URL. -/
  | emptyBaseUrl
  /-- The URL has another scheme. -/
  | foreignBaseUrl
  /-- There is no protocol version. -/
  | emptyVersion
  /-- The salt has no bytes. -/
  | emptySalt
  /-- Searches could return nothing. -/
  | noResults
  /-- The page size is zero or exceeds the greatest number of results. -/
  | pageSize
  deriving DecidableEq

/-- The wording of the error. -/
def ConfigError.message : ConfigError → String
  | emptyBaseUrl => "Invalid configuration: Base URL cannot be empty"
  | foreignBaseUrl => "Invalid configuration: Base URL must start with http:// or https://"
  | emptyVersion => "Invalid configuration: SCIM version cannot be empty"
  | emptySalt => "Invalid configuration: Version salt cannot be empty"
  | noResults => "Invalid configuration: max_results must be at least 1"
  | pageSize => "Invalid configuration: default_page_size must be between 1 and max_results"

namespace Config

/-- The settings that hold unless others are given. -/
def standard : Config :=
  { root := ⟨"https://localhost", "v2"⟩, salt := none, maxResults := 1000, defaultPageSize := 100
    restampOnPatch := false, hooks := [] }

/-- Whether a URL has one of the schemes that are served. -/
def isServed (url : String) : Bool :=
  ["http://", "https://"].any fun scheme => scheme.toList.isPrefixOf url.toList

/-- Refuses settings that cannot be used. -/
def validate (config : Config) : Except ConfigError Unit :=
  if config.root.baseUrl = "" then .error .emptyBaseUrl
  else if !isServed config.root.baseUrl then .error .foreignBaseUrl
  else if config.root.version = "" then .error .emptyVersion
  else if config.salt = some [] then .error .emptySalt
  else if config.maxResults = 0 then .error .noResults
  else if config.defaultPageSize = 0 ∨ config.maxResults < config.defaultPageSize then
    .error .pageSize
  else .ok ()

/-- The settings in one line. Of the salt it only says whether there is one. -/
def summary (config : Config) : String :=
  "BackendConfig \x7b base_url: " ++ Text.quoted config.root.baseUrl ++
    ", scim_version: " ++ Text.quoted config.root.version ++
    ", salt: " ++ (if config.salt.isSome then "Some(\"<set>\")" else "None") ++
    ", max_results: " ++ toString config.maxResults ++
    ", default_page_size: " ++ toString config.defaultPageSize ++
    ", recompute_etag_on_patch: " ++ Text.truth config.restampOnPatch ++
    ", hooks: " ++ toString config.hooks.length ++ " \x7d"

end Config
end ScimDirectory
