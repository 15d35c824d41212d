import AiStorage.KV.Layout
import AiStorage.KV.Record
import AiStorage.Lib.Url

/-!
# Location URIs

How `nvme_tier.py` and `s3_tier.py` write the place of a payload into a URI and read it
back. The object and segment URIs quote their path, the file URI does not.
-/
namespace AiStorage.KV
open Lib

inductive LayoutMode where
  | contentAddressed | segment
  deriving DecidableEq, Repr

def LayoutMode.name : LayoutMode → Text
  | contentAddressed => text "content_addressed"
  | segment => text "segment"

/-- What the methods of an `NVMeTier` read, as its constructor leaves it. -/
structure NVMeTier where
  rootDir : Path
  resolved : rootDir.Resolved
  maxBytes : Int
  capacity : 0 < maxBytes
  layoutMode : LayoutMode
  segmentBytes : Int
  segmentCapacity : 0 < segmentBytes
  workingDir : Path

structure SegmentRef where
  path : Path
  offset : Int
  recordBytes : Int
  deriving DecidableEq

/-- `Path | SegmentRef` -/
inductive Target where
  | file (path : Path)
  | segment (ref : SegmentRef)
  deriving DecidableEq

def mismatch (message : String) : PyError := .saying .metadataMismatch message

/-- The attributes that a file-backed location sets; the others keep their defaults. -/
def nvmeAttributes : LocationField → PyVal
  | .locality => .str (text "same_node")
  | .transport => .str (text "file_posix_default")
  | field => field.default

/-- `urlparse(uri)`; none of the schemes used here has parameters. -/
def parseUri (uri : Text) : Except PyError SplitUrl :=
  match urlsplit uri with
  | some url => .ok url
  | none => .error (.bare .valueError)

def quoteText (s : Text) : Except PyError Text :=
  match quote s with
  | some quoted => .ok quoted
  | none => .error (.bare .unicodeEncodeError)

namespace NVMeTier

variable (tier : NVMeTier)

/-- `Path(s).resolve(strict=False)` -/
def resolve (s : Text) : Except PyError Path :=
  match resolvePath tier.workingDir s with
  | some path => .ok path
  | none => .error (.bare .valueError)

def segmentRoot : Path := tier.rootDir ++ [text "segments"]

def fileUri (path : Path) : Text := text "file://" ++ path.str

def locationFor (key : BlockKey) (path : Path) (bytes : Int) (checksum : Text)
    (createdAt lastAccess : Number) : BlockLocation where
  key := key
  tier := .nvme
  uri := fileUri path
  bytes := bytes
  checksum := checksum
  createdAt := createdAt
  lastAccess := lastAccess
  attributes := nvmeAttributes

def segmentUri (ref : SegmentRef) : Except PyError Text := do
  let quoted ← quoteText ref.path.str
  return text "segment://" ++ quoted ++ text "?offset=" ++ intText ref.offset ++
    text "&record_bytes=" ++ intText ref.recordBytes

def segmentLocationFor (key : BlockKey) (ref : SegmentRef) (bytes : Int) (checksum : Text)
    (createdAt lastAccess : Number) : Except PyError BlockLocation := do
  let uri ← segmentUri ref
  return {
    key, uri, bytes, checksum, createdAt, lastAccess
    tier := .nvme
    attributes := nvmeAttributes }

def pathFromLocation (location : BlockLocation) : Except PyError Path := do
  let parsed ← parseUri location.uri
  require (parsed.scheme = text "file" && (parsed.netloc.isEmpty || parsed.netloc = text "localhost") &&
      parsed.query.isEmpty && parsed.fragment.isEmpty)
    (mismatch "invalid persisted file location")
  let path ← tier.resolve (unquote parsed.path)
  match blockPath tier.rootDir location.key with
  | .error _ => .error (mismatch "canonical file location escapes the configured root")
  | .ok expected =>
    require (path = expected) (mismatch "persisted file location is not canonical")
    return path

/-- `int(query[name][0])` -/
def queryInt (name : String) (query : Text) : Except PyError Int :=
  match (queryField (text name) query).bind pyInt with
  | some n => .ok n
  | none => .error (.saying .valueError "invalid segment uri")

def maxRecordBytes : Int := magic.length + 4 + maxHeaderBytes + tier.maxBytes

def suffix (path : Path) : Text := nameSuffix (path.getLast?.getD [])

/-- The check of `_segment_ref_from_uri` for the block that the segment is said to hold. -/
def checkSegmentKey (path : Path) : Option BlockKey → Except PyError Unit
  | none => .ok ()
  | some key => do
    let dir ← namespaceDir tier.segmentRoot key
    require (path.dropLast = dir && suffix path = text ".kvseg")
      (.saying .valueError "segment path is not canonical for BlockKey")

def segmentRefFromUri (uri : Text) (key : Option BlockKey) : Except PyError SegmentRef := do
  let parsed ← parseUri uri
  require (parsed.scheme = text "segment" && parsed.netloc.isEmpty && parsed.fragment.isEmpty)
    (.saying .valueError "not a segment uri")
  let offset ← queryInt "offset" parsed.query
  let recordBytes ← queryInt "record_bytes" parsed.query
  require (0 ≤ offset && 0 < recordBytes) (.saying .valueError "invalid segment bounds")
  require (recordBytes ≤ tier.maxRecordBytes)
    (.saying .valueError "segment record exceeds configured bounds")
  let path ← tier.resolve (unquote parsed.path)
  require (tier.segmentRoot.isPrefixOf path)
    (.saying .valueError "segment path escapes configured root")
  tier.checkSegmentKey path key
  return { path, offset, recordBytes }

def validatedLocationTarget (location : BlockLocation) : Except PyError Target :=
  if location.tier ≠ .nvme then .error (mismatch "persisted location key/tier mismatch")
  else
    match tier.layoutMode with
    | .segment =>
      match tier.segmentRefFromUri location.uri location.key with
      | .ok ref => .ok (.segment ref)
      | .error e =>
        if e.cls.isValueError then .error (mismatch "invalid persisted segment location")
        else .error e
    | .contentAddressed => do
      let parsed ← parseUri location.uri
      require (parsed.scheme = text "file") (mismatch "content-addressed tier requires a file URI")
      let path ← tier.pathFromLocation location
      return .file path

end NVMeTier

/-! ## Object locations -/

def isBucketEdge (c : CodePoint) : Bool := isAsciiLetter c || isDigit c

def bucketOk (bucket : Text) : Bool :=
  bucket.head?.any isBucketEdge && bucket.getLast?.any isBucketEdge && bucket.length ≤ 255 &&
    bucket.all fun c => isBucketEdge c || c = ch '.' || c = ch '_' || c = ch '-'

def prefixOk (bucketPrefix : Text) : Bool :=
  (encodeUtf8 bucketPrefix).isSome && utf8Length bucketPrefix ≤ 1024 && !hasControl bucketPrefix

def stripSlashes (s : Text) : Text :=
  ((s.dropWhile (· = slash)).reverse.dropWhile (· = slash)).reverse

def maxS3PayloadBytes : Int := 17179869184

structure S3Tier where
  bucket : Text
  bucketAccepted : bucketOk bucket = true
  givenPrefix : Text
  prefixAccepted : prefixOk givenPrefix = true
  maxPayloadBytes : Int
  payloadAccepted : 0 < maxPayloadBytes ∧ maxPayloadBytes ≤ maxS3PayloadBytes

def s3Attributes : LocationField → PyVal
  | .locality => .str (text "cross_zone")
  | .transport => .str (text "s3_http_default")
  | field => field.default

namespace S3Tier

variable (tier : S3Tier)

def objectKey (key : BlockKey) : Text := KV.objectKey (stripSlashes tier.givenPrefix) key

def locationFor (key : BlockKey) (objectKey : Text) (bytes : Int) (checksum : Text)
    (createdAt lastAccess : Number) : Except PyError BlockLocation := do
  let quoted ← quoteText objectKey
  return {
    key, bytes, checksum, createdAt, lastAccess
    tier := .s3
    uri := text "s3://" ++ tier.bucket ++ slash :: quoted
    attributes := s3Attributes }

def encodedKey (path : Text) : Text := if path.head? = some slash then path.drop 1 else []

def locationTarget (location : BlockLocation) : Except PyError (Text × Text) := do
  require (location.tier = .s3) (mismatch "persisted S3 location key/tier mismatch")
  let parsed ← parseUri location.uri
  match unquoteStrict (encodedKey parsed.path) with
  | none => .error (mismatch "persisted S3 location has invalid encoding")
  | some objectKey =>
    let outside := mismatch "persisted S3 location is outside configured bucket/prefix"
    require (parsed.scheme = text "s3" && parsed.netloc = tier.bucket && parsed.query.isEmpty &&
      parsed.fragment.isEmpty) outside
    let quoted ← quoteText objectKey
    require (quoted = encodedKey parsed.path && objectKey = tier.objectKey location.key) outside
    return (tier.bucket, objectKey)

end S3Tier

/-! ## File URIs -/

theorem parseUri_plain {scheme netloc quoted : Text} (known : schemeOk scheme = true)
    (host : netlocOk netloc = true) (path : quoted.all isPathChar = true) :
    parseUri (scheme ++ ch ':' :: slash :: slash :: (netloc ++ slash :: quoted)) =
      .ok { scheme, netloc, path := slash :: quoted, query := [], fragment := [] } := by
  have clean : (slash :: quoted).all isPathChar = true := by
    rw [List.all_cons, path]
    decide
  obtain ⟨fragment, query⟩ := not_mem_pathChars clean
  rw [parseUri, urlsplit_absolute known host, filter_pathChars clean, cutAt_of_not_mem fragment,
    cutAt_of_not_mem query]

theorem str_cons (p : Path) : ∃ rest, p.str = slash :: rest := by
  have first := p.head_str
  cases shape : p.str with
  | nil => rw [shape] at first; cases first
  | cons c rest =>
    rw [shape] at first
    exact ⟨rest, by rw [Option.some.inj first]⟩

theorem str_append {root parts : Path} (filled : parts ≠ []) :
    (root ++ parts).str = root.flatMap (slash :: ·) ++ parts.flatMap (slash :: ·) := by
  rw [Path.str, if_neg (by simp [filled]), List.flatMap_append]

theorem plainNames_chars {parts : Path} (plain : ∀ name ∈ parts, plainName name = true) :
    ∀ c ∈ parts.flatMap (slash :: ·), isPathChar c = true ∧ c ≠ percent := by
  intro c member
  obtain ⟨name, inside, there⟩ := List.mem_flatMap.mp member
  rcases List.mem_cons.mp there with rfl | inName
  · decide
  · have chars := plain name inside
    simp only [plainName, Bool.and_eq_true, List.all_eq_true] at chars
    have allowed := chars.2 c inName
    have dotted : dot.val = 46 := rfl
    simp only [isBase64Digit, Bool.or_eq_true, Bool.and_eq_true, decide_eq_true_eq, Fin.ext_iff,
      dotted] at allowed
    have apart : ∀ d : CodePoint, d.val < 45 ∨ d.val = 63 → c ≠ d := by
      rintro d low rfl
      omega
    refine ⟨?_, apart percent (by decide)⟩
    have safe : isUnsafe c = false := by
      simp only [isUnsafe, Bool.or_eq_false_iff, decide_eq_false_iff_not]
      omega
    simp [isPathChar, safe, apart (ch '#') (by decide), apart (ch '?') (by decide)]

theorem plainPath_append {root parts : Path} (plain : ∀ name ∈ parts, plainName name = true)
    (filled : parts ≠ []) : plainPath (root ++ parts).str = plainPath root.str := by
  have chars := plainNames_chars plain
  have tail : ∃ rest, parts.flatMap (slash :: ·) = slash :: rest := by
    cases parts with
    | nil => exact absurd rfl filled
    | cons name more => exact ⟨_, rfl⟩
  obtain ⟨rest, tail⟩ := tail
  have quiet : hasEscape rest = false := by
    refine hasEscape_of_not_mem fun member => ?_
    exact (chars percent (by rw [tail]; exact List.mem_cons_of_mem _ member)).2 rfl
  have clean : (slash :: rest).all isPathChar = true := by
    rw [← tail, List.all_eq_true]
    exact fun c member => (chars c member).1
  rw [str_append filled, tail, plainPath, plainPath, List.all_append, clean, Bool.and_true,
    hasEscape_append_cons breaksEscape_slash, quiet, Bool.or_false]
  cases root with
  | nil => rfl
  | cons name more => rfl

theorem quoteText_ok {s quoted : Text} : quoteText s = .ok quoted ↔ quote s = some quoted := by
  unfold quoteText
  split
  · next found => simp [found]
  · next found => simp [found]

theorem quote_slash {s quoted : Text} (done : quote (slash :: s) = some quoted) :
    ∃ rest, quoted = slash :: rest := by
  obtain ⟨bytes, encoded, rfl⟩ := quote_eq_some done
  rw [(scalar_of_encodeUtf8 encoded).2]
  exact ⟨_, rfl⟩

theorem parseUri_quoted {scheme netloc quoted query : Text} (known : schemeOk scheme = true)
    (host : netlocOk netloc = true) (path : (slash :: quoted).all isPathChar = true)
    (fields : query.all isPathChar = true) :
    parseUri (scheme ++ ch ':' :: slash :: slash :: (netloc ++ slash :: (quoted ++ ch '?' :: query))) =
      .ok { scheme, netloc, query, path := slash :: quoted, fragment := [] } := by
  have kept : (slash :: (quoted ++ ch '?' :: query)).filter (fun c => !isUnsafe c) =
      slash :: (quoted ++ ch '?' :: query) := by
    rw [← List.cons_append, List.filter_append, filter_pathChars path,
      List.filter_cons_of_pos (by decide), filter_pathChars fields]
  have fragment : ch '#' ∉ (slash :: quoted) ++ ch '?' :: query := by
    intro member
    rcases List.mem_append.mp member with inPath | inQuery
    · exact (not_mem_pathChars path).1 inPath
    · exact (List.mem_cons.mp inQuery).elim (by decide) (not_mem_pathChars fields).1
  rw [parseUri, urlsplit_absolute known host, kept, ← List.cons_append, cutAt_of_not_mem fragment,
    cutAt_append (not_mem_pathChars path).2]

theorem pathChars_decimal (n : Nat) : (decimal n).all isPathChar = true := by
  refine List.all_eq_true.mpr fun c member => ?_
  have digit := isDigit_of_mem_decimal member
  simp only [isDigit, Bool.and_eq_true, decide_eq_true_eq] at digit
  have apart : ∀ d : CodePoint, d.val < 48 ∨ d.val = 63 → c ≠ d := by
    rintro d other rfl
    omega
  have safe : isUnsafe c = false := by
    simp only [isUnsafe, Bool.or_eq_false_iff, decide_eq_false_iff_not]
    omega
  simp [isPathChar, safe, apart (ch '#') (by decide), apart (ch '?') (by decide)]

theorem intText_of_nonneg {n : Int} (nonneg : 0 ≤ n) : intText n = decimal n.toNat := by
  have plain : ¬ n < 0 := by omega
  rw [intText_eq_signed, decide_eq_false plain, signed, if_neg Bool.false_ne_true]
  congr 1
  omega

theorem encodes_plainNames {parts : List Text} (plain : ∀ name ∈ parts, plainName name = true) :
    ∀ name ∈ parts, (encodeUtf8 name).isSome = true := by
  intro name member
  obtain ⟨bytes, encoded, -⟩ := encodeUtf8_plainName (plain name member)
  rw [encoded]
  rfl

namespace NVMeTier

variable (tier : NVMeTier)

theorem resolved_segmentRoot : tier.segmentRoot.Resolved :=
  List.forall_mem_append.mpr ⟨tier.resolved, List.forall_mem_singleton.mpr (by decide)⟩

theorem resolve_str {path : Path} (resolved : path.Resolved) : tier.resolve path.str = .ok path := by
  rw [resolve, Path.resolvePath_str _ resolved]

theorem parseUri_fileUri (path : Path) :
    ∃ url, parseUri (fileUri path) = .ok url ∧ url.scheme = text "file" ∧ url.netloc = [] ∧
      unquote url.path = readPath path.str ∧
      (plainPath path.str = true → url.query = [] ∧ url.fragment = []) := by
  obtain ⟨rest, absolute⟩ := str_cons path
  have uri : fileUri path = text "file" ++ ch ':' :: slash :: slash :: ([] ++ slash :: rest) := by
    rw [fileUri, absolute]
    rfl
  rw [uri, parseUri, urlsplit_absolute (by decide) (by decide), absolute]
  refine ⟨_, rfl, rfl, rfl, rfl, fun plain => ?_⟩
  simp only [plainPath, Bool.and_eq_true] at plain
  obtain ⟨fragment, query⟩ := not_mem_pathChars plain.1
  dsimp only
  rw [filter_pathChars plain.1, cutAt_of_not_mem fragment, cutAt_of_not_mem query]
  exact ⟨rfl, rfl⟩

/-- A file URI reads back exactly if its path is plain. -/
theorem pathFromLocation_locationFor_iff (key : BlockKey) (bytes : Int) (checksum : Text)
    (createdAt lastAccess : Number) :
    tier.pathFromLocation (locationFor key (tier.rootDir ++ storageKeyParts key) bytes checksum
        createdAt lastAccess) = .ok (tier.rootDir ++ storageKeyParts key) ↔
      plainPath tier.rootDir.str = true := by
  have filled : storageKeyParts key ≠ [] := by simp [storageKeyParts]
  have fixed : Path.Resolved (tier.rootDir ++ storageKeyParts key) :=
    List.forall_mem_append.mpr ⟨tier.resolved, resolved_storageKeyParts key⟩
  rw [← plainPath_append (plainName_storageKeyParts key) filled]
  generalize place : tier.rootDir ++ storageKeyParts key = path at fixed ⊢
  obtain ⟨url, parsed, scheme, netloc, read, clean⟩ := parseUri_fileUri path
  constructor
  · intro reads
    simp only [pathFromLocation, locationFor, parsed, bind_eq_ok,
      exists_unit] at reads
    obtain ⟨_, same, -, found, resolved, last⟩ := reads
    obtain rfl := Except.ok.inj same
    rw [blockPath_eq tier.resolved, place] at last
    simp only [bind_unit_ok] at last
    obtain rfl := Except.ok.inj last.2
    by_contra other
    have short := length_readPath (Bool.eq_false_iff.mpr other)
    obtain ⟨rest, absolute⟩ := str_cons found
    have bound : found.str.length ≤ (readPath found.str).length := by
      rw [read, resolve] at resolved
      split at resolved
      · next p some =>
        obtain rfl := Except.ok.inj resolved
        exact Path.length_resolvePath some (by rw [absolute]; exact head_readPath rest)
      · cases resolved
    omega
  · intro plain
    obtain ⟨query, fragment⟩ := clean plain
    simp only [pathFromLocation, locationFor, parsed, bind_eq_ok,
      exists_unit, require_ok]
    refine ⟨url, rfl, by simp [scheme, netloc, query, fragment], path, ?_, ?_⟩
    · rw [read, readPath_of_plain plain, tier.resolve_str fixed]
    · rw [blockPath_eq tier.resolved, place]
      simp [require]

/-! ## Segment URIs -/

/-- A place that the tier may give to a record of the block. -/
structure Canonical (key : BlockKey) (ref : SegmentRef) (name : Text) : Prop where
  path : ref.path = tier.segmentRoot ++ namespaceParts key ++ [name]
  named : nameOk name = true
  suffix : nameSuffix name = text ".kvseg"
  encodes : (encodeUtf8 name).isSome = true
  offset : 0 ≤ ref.offset
  record : 0 < ref.recordBytes
  bounded : ref.recordBytes ≤ tier.maxRecordBytes

theorem queryInt_fields (offset size : Nat) :
    let query := text "offset=" ++ decimal offset ++ text "&record_bytes=" ++ decimal size
    queryInt "offset" query = .ok offset ∧ queryInt "record_bytes" query = .ok size := by
  have first := plainQuery_decimal offset
  have second := plainQuery_decimal size
  have shape : text "offset=" ++ decimal offset ++ text "&record_bytes=" ++ decimal size =
      text "offset" ++ ch '=' :: decimal offset ++
        ch '&' :: (text "record_bytes" ++ ch '=' :: decimal size) := by
    simp only [List.append_assoc, List.cons_append]
    rfl
  dsimp only
  rw [shape]
  unfold queryInt
  constructor
  · rw [queryField_cons (by decide) first.1 first.2, if_pos rfl, Option.bind_some, pyInt_decimal]
  · rw [queryField_cons (by decide) first.1 first.2, if_neg (by decide),
      queryField_last (by decide) second.1 second.2, Option.bind_some, pyInt_decimal]

theorem pathChars_query (offset size : Nat) :
    (text "offset=" ++ decimal offset ++ text "&record_bytes=" ++ decimal size).all isPathChar =
      true := by
  simp only [List.all_append, pathChars_decimal]
  decide

variable {ref : SegmentRef}

theorem parseUri_segmentUri {uri : Text} (offset : 0 ≤ ref.offset)
    (record : 0 ≤ ref.recordBytes) (written : segmentUri ref = .ok uri) :
    ∃ url, parseUri uri = .ok url ∧ url.scheme = text "segment" ∧ url.netloc = [] ∧ url.fragment = [] ∧
      unquote url.path = ref.path.str ∧ queryInt "offset" url.query = .ok ref.offset ∧
      queryInt "record_bytes" url.query = .ok ref.recordBytes := by
  obtain ⟨tail, absolute⟩ := str_cons ref.path
  simp only [segmentUri, bind_eq_ok, quoteText_ok] at written
  obtain ⟨quoted, done, same⟩ := written
  obtain ⟨rest, shape⟩ := quote_slash (absolute ▸ done)
  have clean := quoted_pathChars done
  have query := pathChars_query ref.offset.toNat ref.recordBytes.toNat
  obtain ⟨readOffset, readSize⟩ := queryInt_fields ref.offset.toNat ref.recordBytes.toNat
  have offsetBack := Int.toNat_of_nonneg offset
  have sizeBack := Int.toNat_of_nonneg record
  have uriShape : uri = text "segment" ++ ch ':' :: slash :: slash :: ([] ++ slash :: (rest ++ ch '?' ::
      (text "offset=" ++ decimal ref.offset.toNat ++ text "&record_bytes=" ++
        decimal ref.recordBytes.toNat))) := by
    rw [← Except.ok.inj same, intText_of_nonneg offset, intText_of_nonneg record, shape]
    simp only [List.append_assoc, List.cons_append]
    rfl
  have parsed := @parseUri_quoted (text "segment") [] rest _ (by decide) (by decide) (shape ▸ clean) query
  rw [uriShape]
  exact ⟨_, parsed, rfl, rfl, rfl, by rw [← shape, unquote_quote done],
    readOffset.trans (by rw [offsetBack]), readSize.trans (by rw [sizeBack])⟩

theorem segmentRefFromUri_segmentUri {key : BlockKey} {name uri : Text}
    (canonical : tier.Canonical key ref name) (written : segmentUri ref = .ok uri) :
    tier.segmentRefFromUri uri (some key) = .ok ref := by
  have record := canonical.record
  obtain ⟨url, parsed, scheme, netloc, fragment, path, offset, size⟩ :=
    parseUri_segmentUri canonical.offset (by omega) written
  have dir : Path.Resolved (tier.segmentRoot ++ namespaceParts key) :=
    List.forall_mem_append.mpr ⟨tier.resolved_segmentRoot, resolved_namespaceParts key⟩
  have fixed : ref.path.Resolved := by
    rw [canonical.path]
    exact List.forall_mem_append.mpr ⟨dir, List.forall_mem_singleton.mpr canonical.named⟩
  simp only [segmentRefFromUri, parsed, bind_eq_ok, exists_unit,
    require_ok]
  refine ⟨_, rfl, by simp [scheme, netloc, fragment], ref.offset, offset, ref.recordBytes, size, ?_, ?_,
    ref.path, ?_, ?_, ?_, rfl⟩
  · simp [canonical.offset, record]
  · simpa using canonical.bounded
  · rw [path, tier.resolve_str fixed]
  · rw [canonical.path, List.append_assoc]
    simp
  · simp only [checkSegmentKey, namespaceDir_eq tier.resolved_segmentRoot, bind_eq_ok,
      require_ok]
    refine ⟨_, rfl, ?_⟩
    rw [canonical.path, List.dropLast_concat, suffix, List.getLast?_concat, Option.getD_some,
      canonical.suffix]
    simp

theorem segmentRefFromUri_unique {key : Option BlockKey} {found : SegmentRef} {uri : Text}
    (fixed : ref.path.Resolved) (offset : 0 ≤ ref.offset) (record : 0 ≤ ref.recordBytes)
    (written : segmentUri ref = .ok uri) (read : tier.segmentRefFromUri uri key = .ok found) :
    found = ref := by
  obtain ⟨url, parsed, -, -, -, path, readOffset, size⟩ := parseUri_segmentUri offset record written
  simp only [segmentRefFromUri, parsed, bind_eq_ok, exists_unit,
    require_ok] at read
  obtain ⟨_, ⟨⟩, -, offset', sameOffset, size', sameSize, -, -, path', resolved, -, -, built⟩ := read
  rw [readOffset] at sameOffset
  rw [size] at sameSize
  rw [path, tier.resolve_str fixed] at resolved
  cases sameOffset
  cases sameSize
  cases resolved
  cases built
  rfl

theorem segmentUri_ok_iff :
    (∃ uri, segmentUri ref = .ok uri) ↔ (encodeUtf8 ref.path.str).isSome = true := by
  simp only [segmentUri, bind_eq_ok, quoteText_ok, quote]
  cases encodeUtf8 ref.path.str with
  | none => simp
  | some bytes => exact ⟨fun _ => rfl, fun _ => ⟨_, _, rfl, rfl⟩⟩

theorem Canonical.encodes_path {tier : NVMeTier} {key : BlockKey} {name : Text}
    (canonical : tier.Canonical key ref name) :
    (encodeUtf8 ref.path.str).isSome = true ↔ (encodeUtf8 tier.rootDir.str).isSome = true := by
  rw [Path.encodeUtf8_str, Path.encodeUtf8_str, canonical.path, segmentRoot]
  simp only [List.forall_mem_append, List.forall_mem_singleton, canonical.encodes, and_true]
  exact ⟨fun all => all.1.1, fun root => ⟨⟨root, by decide⟩,
    encodes_plainNames (plainName_namespaceParts key)⟩⟩

def firstRef (key : BlockKey) : SegmentRef where
  path := tier.segmentRoot ++ namespaceParts key ++ [text "segment-000000.kvseg"]
  offset := 0
  recordBytes := 1

theorem canonical_firstRef (key : BlockKey) :
    tier.Canonical key (tier.firstRef key) (text "segment-000000.kvseg") where
  path := rfl
  named := by decide
  suffix := by decide
  encodes := by decide
  offset := Int.le_refl 0
  record := Int.zero_lt_one
  bounded := by
    have := tier.capacity
    have header : (8 : Int) + 4 + 65536 + tier.maxBytes = tier.maxRecordBytes := rfl
    change 1 ≤ tier.maxRecordBytes
    omega

end NVMeTier

/-! ## Object URIs -/

namespace S3Tier

variable (tier : S3Tier)

theorem netlocOk_bucket : netlocOk tier.bucket = true := by
  have ok := tier.bucketAccepted
  simp only [bucketOk, Bool.and_eq_true, List.all_eq_true] at ok
  refine List.all_eq_true.mpr fun c member => ?_
  have allowed := ok.2 c member
  have marks : (ch '.').val = 46 ∧ (ch '_').val = 95 ∧ (ch '-').val = 45 := by decide
  simp only [isBucketEdge, isAsciiLetter, isDigit, Bool.or_eq_true, Bool.and_eq_true,
    decide_eq_true_eq, Fin.ext_iff, marks] at allowed
  have apart : ∀ d : CodePoint, d.val < 45 ∨ d.val = 47 ∨ d.val = 63 ∨ d.val = 91 ∨ d.val = 93 →
      c ≠ d := by
    rintro d other rfl
    omega
  have safe : isUnsafe c = false := by
    simp only [isUnsafe, Bool.or_eq_false_iff, decide_eq_false_iff_not]
    omega
  simp [endsNetloc, safe, apart slash (by decide), apart (ch '?') (by decide),
    apart (ch '#') (by decide), apart (ch '[') (by decide), apart (ch ']') (by decide)]

theorem mem_stripSlashes {s : Text} {c : CodePoint} (member : c ∈ stripSlashes s) : c ∈ s := by
  have inner := (List.dropWhile_sublist _).subset (List.mem_reverse.mp member)
  exact (List.dropWhile_sublist _).subset (List.mem_reverse.mp inner)

theorem mem_joined {c : CodePoint} {parts : List Text} (member : c ∈ [slash].intercalate parts) :
    c = slash ∨ ∃ name ∈ parts, c ∈ name := by
  induction parts with
  | nil => simp [List.intercalate, List.intersperse] at member
  | cons first rest ih =>
    cases rest with
    | nil => exact .inr ⟨first, List.mem_singleton_self _, by simpa [List.intercalate] using member⟩
    | cons next more =>
      have split : c ∈ first ++ slash :: [slash].intercalate (next :: more) := by
        simpa [List.intercalate, List.intersperse] using member
      rcases List.mem_append.mp split with here | later
      · exact .inr ⟨first, List.mem_cons_self, here⟩
      · rcases List.mem_cons.mp later with rfl | inside
        · exact .inl rfl
        · rcases ih inside with rfl | ⟨name, there, inName⟩
          · exact .inl rfl
          · exact .inr ⟨name, List.mem_cons_of_mem _ there, inName⟩

theorem encodes_objectKey (key : BlockKey) : (encodeUtf8 (tier.objectKey key)).isSome = true := by
  have accepted := tier.prefixAccepted
  simp only [prefixOk, Bool.and_eq_true] at accepted
  have front := encodeUtf8_isSome.mp accepted.1.1
  have parts := encodes_plainNames (plainName_storageKeyParts key)
  have path : ∀ c ∈ [slash].intercalate (storageKeyParts key), c.isSurrogate = false := by
    intro c member
    rcases mem_joined member with rfl | ⟨name, inside, there⟩
    · decide
    · exact encodeUtf8_isSome.mp (parts name inside) c there
  rw [encodeUtf8_isSome, objectKey, KV.objectKey]
  intro c member
  split at member
  · exact path c member
  · rcases List.mem_append.mp member with inPrefix | inPath
    · exact front c (mem_stripSlashes inPrefix)
    · rcases List.mem_cons.mp inPath with rfl | later
      · decide
      · exact path c later

theorem locationTarget_locationFor (key : BlockKey) (bytes : Int) (checksum : Text)
    (createdAt lastAccess : Number) :
    ∃ location, tier.locationFor key (tier.objectKey key) bytes checksum createdAt lastAccess =
        .ok location ∧ tier.locationTarget location = .ok (tier.bucket, tier.objectKey key) := by
  obtain ⟨encoded, encodes⟩ := Option.isSome_iff_exists.mp (tier.encodes_objectKey key)
  have done : quote (tier.objectKey key) = some (encoded.flatMap quoteByte) := by
    rw [quote, encodes]
    rfl
  generalize encoded.flatMap quoteByte = quoted at done
  have parsed := @parseUri_plain (text "s3") tier.bucket quoted (by decide) tier.netlocOk_bucket
    (quoted_pathChars done)
  have uri : text "s3://" ++ tier.bucket ++ slash :: quoted =
      text "s3" ++ ch ':' :: slash :: slash :: (tier.bucket ++ slash :: quoted) := by
    simp only [List.append_assoc]
    rfl
  refine ⟨{
    key, bytes, checksum, createdAt, lastAccess
    tier := .s3
    uri := text "s3://" ++ tier.bucket ++ slash :: quoted
    attributes := s3Attributes }, ?_, ?_⟩
  · rw [locationFor, quoteText_ok.mpr done]
    rfl
  · simp only [locationTarget, uri, parsed, bind_eq_ok, exists_unit,
      require_ok]
    refine ⟨rfl, _, rfl, ?_⟩
    have back : unquoteStrict (encodedKey (slash :: quoted)) = some (tier.objectKey key) :=
      unquoteStrict_quote done
    simp only [back, bind_eq_ok, exists_unit, require_ok]
    exact ⟨by simp, quoted, quoteText_ok.mpr done, by simp [encodedKey], rfl⟩

end S3Tier

/-- Every URI that the tiers write for a block reads back, exactly if the root directory
needs no quoting and can be encoded. -/
theorem location_uris_read_back_iff (tier : NVMeTier) (key : BlockKey) :
    ((∀ bytes checksum createdAt lastAccess, ∃ path, blockPath tier.rootDir key = .ok path ∧
        tier.pathFromLocation (NVMeTier.locationFor key path bytes checksum createdAt lastAccess) =
          .ok path) ∧
      (∀ ref name, tier.Canonical key ref name → ∃ uri, NVMeTier.segmentUri ref = .ok uri ∧
        tier.segmentRefFromUri uri (some key) = .ok ref) ∧
      ∀ (s3 : S3Tier) bytes checksum createdAt lastAccess, ∃ location,
        s3.locationFor key (s3.objectKey key) bytes checksum createdAt lastAccess = .ok location ∧
          s3.locationTarget location = .ok (s3.bucket, s3.objectKey key)) ↔
      plainPath tier.rootDir.str = true ∧ (encodeUtf8 tier.rootDir.str).isSome = true := by
  have place := blockPath_eq tier.resolved key
  constructor
  · rintro ⟨files, segments, -⟩
    constructor
    · obtain ⟨path, same, reads⟩ := files 0 [] (.int 0) (.int 0)
      rw [place] at same
      obtain rfl := Except.ok.inj same
      exact (tier.pathFromLocation_locationFor_iff key 0 [] (.int 0) (.int 0)).mp reads
    · have canonical := tier.canonical_firstRef key
      obtain ⟨uri, written, -⟩ := segments _ _ canonical
      exact canonical.encodes_path.mp (NVMeTier.segmentUri_ok_iff.mp ⟨uri, written⟩)
  · rintro ⟨plain, encodes⟩
    refine ⟨fun bytes checksum createdAt lastAccess => ⟨_, place, ?_⟩, fun ref name canonical => ?_,
      fun s3 => s3.locationTarget_locationFor key⟩
    · exact (tier.pathFromLocation_locationFor_iff key bytes checksum createdAt lastAccess).mpr plain
    · obtain ⟨uri, written⟩ := NVMeTier.segmentUri_ok_iff.mpr (canonical.encodes_path.mpr encodes)
      exact ⟨uri, written, tier.segmentRefFromUri_segmentUri canonical written⟩

/-- A root whose name holds an escape, in a tier of either layout. -/
def escapedRoot : NVMeTier where
  rootDir := [text "kv%20cache"]
  resolved := by decide
  maxBytes := 1024
  capacity := by decide
  layoutMode := .contentAddressed
  segmentBytes := 1024
  segmentCapacity := by decide
  workingDir := []

/-- Its own file URI names another directory. -/
theorem escapedRoot_rejects_own_uri :
    blockPath escapedRoot.rootDir sampleKey = .ok (escapedRoot.rootDir ++ storageKeyParts sampleKey) ∧
      escapedRoot.pathFromLocation (NVMeTier.locationFor sampleKey
        (escapedRoot.rootDir ++ storageKeyParts sampleKey) 3 (List.replicate 64 (ch 'a')) (.int 0)
        (.int 0)) = .error (mismatch "persisted file location is not canonical") := by
  decide +kernel

end AiStorage.KV
