import HttpsServ.Utility
import HttpsServ.Library.Numeral

/-!
# http_parser.c

The header of a response as it is built up field by field, its serialisation,
and the parser of requests. A `char *` field is `none` while it is `NULL`.
-/

namespace HttpsServ.HttpParser

open ByteString Utility Numeral

def httpHeadCount : Nat := 3
def httpBodyFieldLimit : Nat := 128
def maxUrlSize : Nat := 2048
def sizeofHeaderDeliminations : Nat := 7

/-- `struct HttpResponseHeader`; `bodySlots` is the number of pointers that the
block behind `body` has room for. -/
structure HttpResponseHeader where
  version : Option Bytes := none
  statusCode : Option Bytes := none
  status : Option Bytes := none
  body : List Bytes := []
  bodySlots : Nat := 0
  totalByteLength : Int := 0
  deriving DecidableEq

/-- `struct HttpRequestHeader`. -/
structure HttpRequestHeader where
  method : Option Bytes := none
  path : Option Bytes := none
  version : Option Bytes := none
  body : Option Bytes := none
  deriving DecidableEq

structure MimeType where
  extension : Bytes
  type : Bytes

def mime (extension type : String) : MimeType := ⟨bytes extension, bytes type⟩

def kMimeTypes : List MimeType :=
  [mime ".aac" "audio/aac",
   mime ".abw" "application/x-abiword",
   mime ".arc" "application/x-freearc",
   mime ".avi" "video/x-msvideo",
   mime ".azw" "application/vnd.amazon.ebook",
   mime ".bin" "application/octet-stream",
   mime ".bmp" "image/bmp",
   mime ".bz" "application/x-bzip",
   mime ".bz2" "application/x-bzip2",
   mime ".cda" "application/x-cdf",
   mime ".csh" "application/x-csh",
   mime ".css" "text/css",
   mime ".csv" "text/csv",
   mime ".doc" "application/msword",
   mime ".docx" "application/vnd.openxmlformats-officedocument.wordprocessingml.document",
   mime ".eot" "application/vnd.ms-fontobject",
   mime ".epub" "application/epub+zip",
   mime ".gz" "application/gzip",
   mime ".gif" "image/gif",
   mime ".htm" "text/html",
   mime ".html" "text/html",
   mime ".ico" "image/vnd.microsoft.icon",
   mime ".ics" "text/calendar",
   mime ".jar" "application/java-archive",
   mime ".jpeg" "image/jpeg",
   mime ".jpg" "image/jpeg",
   mime ".js" "text/javascript",
   mime ".json" "application/json",
   mime ".jsonld" "application/ld+json",
   mime ".mid" "audio/midi audio/x-midi",
   mime ".midi" "audio/midi audio/x-midi",
   mime ".mjs" "text/javascript",
   mime ".mp3" "audio/mpeg",
   mime ".mp4" "video/mp4",
   mime ".mpeg" "video/mpeg",
   mime ".mpkg" "application/vnd.apple.installer+xml",
   mime ".odp" "application/vnd.oasis.opendocument.presentation",
   mime ".ods" "application/vnd.oasis.opendocument.spreadsheet",
   mime ".odt" "application/vnd.oasis.opendocument.text",
   mime ".oga" "audio/ogg",
   mime ".ogv" "video/ogg",
   mime ".ogx" "application/ogg",
   mime ".opus" "audio/opus",
   mime ".otf" "font/otf",
   mime ".png" "image/png",
   mime ".pdf" "application/pdf",
   mime ".php" "application/x-httpd-php",
   mime ".ppt" "application/vnd.ms-powerpoint",
   mime ".pptx" "application/vnd.openxmlformats-officedocument.presentationml.presentation",
   mime ".rar" "application/vnd.rar",
   mime ".rtf" "application/rtf",
   mime ".sh" "application/x-sh",
   mime ".svg" "image/svg+xml",
   mime ".swf" "application/x-shockwave-flash",
   mime ".tar" "application/x-tar",
   mime ".tif" "image/tiff",
   mime ".tiff" "image/tiff",
   mime ".ts" "video/mp2t",
   mime ".ttf" "font/ttf",
   mime ".txt" "text/plain",
   mime ".vsd" "application/vnd.visio",
   mime ".wav" "audio/wav",
   mime ".weba" "audio/webm",
   mime ".webm" "video/webm",
   mime ".webp" "image/webp",
   mime ".woff" "font/woff",
   mime ".woff2" "font/woff2",
   mime ".xhtml" "application/xhtml+xml",
   mime ".xls" "application/vnd.ms-excel",
   mime ".xlsx" "application/vnd.openxmlformats-officedocument.spreadsheetml.sheet",
   mime ".xml" "application/xml",
   mime ".xul" "application/vnd.mozilla.xul+xml",
   mime ".zip" "application/zip",
   mime ".3gp" "video/3gpp",
   mime ".3g2" "video/3gpp2",
   mime ".7z" "application/x-7z-compressed"]

/-- `ExpandBodySize`: twice as many slots as fields; the fields are copied. -/
def expandBodySize (resp : HttpResponseHeader) : HttpResponseHeader :=
  { resp with bodySlots := resp.body.length * 2 }

/-- The first branch of `SetResponseProperty`; `none` at the field limit. -/
def reserveField (resp : HttpResponseHeader) : Option HttpResponseHeader :=
  let numberOfBodyFields := resp.body.length
  if numberOfBodyFields = 0 then some { resp with bodySlots := 2 }
  else if numberOfBodyFields = httpBodyFieldLimit then none
  else if BitVec.ofNat 32 numberOfBodyFields =
      nextHighestPowerOfTwo (BitVec.ofNat 32 numberOfBodyFields) then
    some (expandBodySize resp)
  else some resp

/-- The loop and the tail of `SetResponseProperty`: overwrite the first field
that contains the key, or append. -/
def storeField (resp : HttpResponseHeader) (propertyKey property : Bytes) :
    HttpResponseHeader :=
  match resp.body.findIdx? fun field => (firstOccurrence propertyKey field).isSome with
  | some i =>
      { resp with
        totalByteLength := toInt32
          (resp.totalByteLength + (property.length - (resp.body.getD i []).length))
        body := resp.body.set i property }
  | none =>
      { resp with
        totalByteLength := toInt32 (resp.totalByteLength + property.length)
        body := resp.body ++ [property] }

def setResponseProperty (resp : HttpResponseHeader) (property : Bytes) :
    HttpResponseHeader :=
  match reserveField resp with
  | none => resp
  | some resp =>
      let propertyKeyLength := getKeywordIndex property (bytes " ")
      if propertyKeyLength = otherError then resp
      else storeField resp (property.take propertyKeyLength.toNat) property

def setResponseStatusLine (resp : HttpResponseHeader) (version statusCode status : Bytes) :
    HttpResponseHeader :=
  { resp with
    version := some version
    statusCode := some statusCode
    status := some status
    totalByteLength := toInt32 (resp.totalByteLength +
      (version.length + statusCode.length + status.length + sizeofHeaderDeliminations)) }

/-- The property that `SetResponseContentType` builds for a type. -/
def contentTypeProperty (type : Bytes) : Bytes := bytes "Content-Type: " ++ type ++ crlf

/-- The body of the loop over `kMIMETypes`, with `is_extension_match`. -/
def matchMimeType (filename : Bytes) (state : HttpResponseHeader × Bool) (mime : MimeType) :
    HttpResponseHeader × Bool :=
  if (stristr filename mime.extension).isSome then
    (setResponseProperty state.1 (contentTypeProperty mime.type), true)
  else state

def setResponseContentType (resp : HttpResponseHeader) (filename : Bytes) :
    HttpResponseHeader :=
  let (resp, isExtensionMatch) := kMimeTypes.foldl (matchMimeType filename) (resp, false)
  if isExtensionMatch then resp
  else setResponseProperty resp (bytes "Content-Type: text/plain\r\n")

def setResponseContentLength (resp : HttpResponseHeader) (size : Int) : HttpResponseHeader :=
  setResponseProperty resp (bytes "Content-Length: " ++ decNumeral size ++ crlf)

/-- The loop of `SetResponseContentLength` that counts digits. -/
def numberOfDigitsLoop (sizeCopy : Int) (numberOfDigits : Nat) : Nat :=
  if sizeCopy.tdiv 10 = 0 then numberOfDigits + 1
  else numberOfDigitsLoop (sizeCopy.tdiv 10) (numberOfDigits + 1)
termination_by sizeCopy.natAbs
decreasing_by
  rename_i hmore
  have hne : sizeCopy.natAbs ≠ 0 := fun hzero => hmore (by rw [Int.natAbs_eq_zero.mp hzero]; rfl)
  rw [Int.natAbs_tdiv]
  exact Nat.div_lt_self (Nat.pos_of_ne_zero hne) (by decide)

/-- The size of the block that `SetResponseContentLength` builds its property in. -/
def contentLengthAllocation (size : Int) : Nat :=
  (bytes "Content-Length: \r\n").length + numberOfDigitsLoop size 0 + 1

/-- `ResponseToBuff`: the string it writes, or `none` when the status line is
not set. -/
def responseToBuff (resp : HttpResponseHeader) : Option Bytes :=
  match resp.version, resp.statusCode, resp.status with
  | some version, some statusCode, some status =>
      some (version ++ bytes " " ++ statusCode ++ bytes " " ++ status ++ crlf ++
        resp.body.flatten ++ crlf)
  | _, _, _ => none

/-- `strtok_r` on the rest of a string: the token, and the rest behind it. -/
def strtok (isDelim : UInt8 → Bool) (s : Bytes) : Option Bytes × Bytes :=
  let start := s.dropWhile isDelim
  if start = [] then (none, [])
  else
    (some (start.takeWhile fun b => !isDelim b),
      (start.dropWhile fun b => !isDelim b).drop 1)

/-- The delimiters `" \r"`. -/
def isHeadDelim (b : UInt8) : Bool := b == 32 || b == 13

/-- The token loop of `FillHttpRequestHeader`; `none` when it gives up. -/
def headerTokens : Nat → Bytes → Option (List Bytes × Bytes)
  | 0, raw => some ([], raw)
  | count + 1, raw =>
      match strtok isHeadDelim raw with
      | (none, _) => none
      | (some token, rest) =>
          if token.length > maxUrlSize then none
          else (headerTokens count rest).map fun (tokens, rest) => (token :: tokens, rest)

/-- `FreeHttpRequestHeader`. -/
def freeHttpRequestHeader (_header : HttpRequestHeader) : HttpRequestHeader := {}

/-- `FillHttpRequestHeader`: its result and the header it leaves, for a call that comes
back. The blocks that it takes and frees are in `RequestMemory`. -/
def fillHttpRequestHeader (header : HttpRequestHeader) (buffer : Bytes) :
    Int × HttpRequestHeader :=
  let httpHeaderLength := getKeywordIndex (cstr buffer) (bytes "\r\n\r\n")
  if httpHeaderLength = otherError then (kBadRequest, header)
  else
    let httpHeaderRaw := (cstr buffer).take httpHeaderLength.toNat
    match headerTokens httpHeadCount httpHeaderRaw with
    | some ([method, path, version], rest) =>
        let header := { header with
          method := some method, path := some path, version := some version }
        if (stristr method (bytes "GET")).isNone then (kNotImplemented, header)
        else
          match firstOccurrence (bytes "\n") rest with
          | some bodyStart => (0, { header with body := some (rest.drop (bodyStart + 1)) })
          | none => (0, { header with body := none })
    | _ => (kBadRequest, freeHttpRequestHeader header)

end HttpsServ.HttpParser
