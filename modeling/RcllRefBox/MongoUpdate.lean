import RcllRefBox.Bson

/-! # Updates from CLIPS to MongoDB, before and after the move to mongocxx

CLIPS updates documents through `mongodb-update`, `mongodb-upsert` and `mongodb-replace`,
each with a collection, a builder `d` and a query that is a JSON string or a builder handle.
All three go through `mongodb_update`, which sends the database a query, an update document
and the upsert flag.

With the legacy driver (`src/src/refbox/refbox.cpp`, kept here under `Legacy`),
`mongodb-update` wrapped `d` as `{$set: d}`, while `mongodb-upsert` and `mongodb-replace`
sent `d` itself, a replacement document. The mongocxx version (`part_000`) moved the
wrapping into `mongodb_update`, so all three now send `{$set: d}`: an upsert or a replace
merges `d` into the stored document instead of replacing it
(`mongodb_migration_wraps_in_set`).

A JSON query is parsed by the driver: `bsoncxx::from_json` now, `mongo::fromjson` before.
Neither is in `src/`, and they need not agree on a text: they are the parameters `parse`
and `legacyParse`, `none` standing for the exception each version catches. A builder handle
as query gives the builder's document in both versions.
-/

namespace RcllRefBox

structure UpdateRequest where
  collection : String
  query : BsonDocument
  update : BsonDocument
  upsert : Bool

/-- What a call sends to the database: one request, nothing, or undefined behaviour (a null
builder dereferenced). -/
inductive Issued
  | request (sent : UpdateRequest)
  | nothing
  | undefined

def Issued.ofOption : Option UpdateRequest → Issued
  | some sent => .request sent
  | none => .nothing

def Issued.setUpdate (update : BsonDocument) : Issued → Issued
  | .request sent => .request { sent with update }
  | outcome => outcome

/-- The query of a request: a JSON string parsed, a builder handle's document; another CLIPS
value is refused ("Invalid query, must be string or BSON document"). -/
def queryDocument (parse : String → Option BsonDocument) : ClipsArg → Option BsonDocument
  | .string json => parse json
  | .externalAddress builder => some builder.view
  | _ => none

def setDocument (d : BsonDocument) : BsonDocument := [("$set", .document d)]

/-- `LLSFRefBox::mongodb_update` of the mongocxx version: `d` is sent as `{$set: d}`. -/
def mongodbUpdate (enabled : Bool) (parse : String → Option BsonDocument) (collection : String)
    (doc : BsonDocument) (query : ClipsArg) (upsert : Bool) : Issued :=
  if enabled then
    .ofOption ((queryDocument parse query).map fun q => ⟨collection, q, setDocument doc, upsert⟩)
  else .nothing

def clipsMongodbUpsert (enabled : Bool) (parse : String → Option BsonDocument)
    (collection : String) (bson : Option BsonBuilder) (query : ClipsArg) : Issued :=
  match bson with
  | none => .nothing
  | some doc => mongodbUpdate enabled parse collection doc.view query true

def clipsMongodbUpdate (enabled : Bool) (parse : String → Option BsonDocument)
    (collection : String) (bson : Option BsonBuilder) (query : ClipsArg) : Issued :=
  match bson with
  | none => .nothing
  | some doc => mongodbUpdate enabled parse collection doc.view query false

/-- `LLSFRefBox::clips_mongodb_replace`: a null builder is logged and then dereferenced. -/
def clipsMongodbReplace (enabled : Bool) (parse : String → Option BsonDocument)
    (collection : String) (bson : Option BsonBuilder) (query : ClipsArg) : Issued :=
  match bson with
  | none => .undefined
  | some doc => mongodbUpdate enabled parse collection doc.view query false

namespace Legacy

/-- `LLSFRefBox::mongodb_update` of the legacy driver: the object is sent as it is. -/
def mongodbUpdate (enabled : Bool) (legacyParse : String → Option BsonDocument)
    (collection : String) (obj : BsonDocument) (query : ClipsArg) (upsert : Bool) : Issued :=
  if enabled then
    .ofOption ((queryDocument legacyParse query).map fun q => ⟨collection, q, obj, upsert⟩)
  else .nothing

def clipsMongodbUpsert (enabled : Bool) (legacyParse : String → Option BsonDocument)
    (collection : String) (bson : Option BsonBuilder) (query : ClipsArg) : Issued :=
  match bson with
  | none => .undefined
  | some doc => mongodbUpdate enabled legacyParse collection doc.view query true

def clipsMongodbUpdate (enabled : Bool) (legacyParse : String → Option BsonDocument)
    (collection : String) (bson : Option BsonBuilder) (query : ClipsArg) : Issued :=
  match bson with
  | none => .undefined
  | some doc => mongodbUpdate enabled legacyParse collection (setDocument doc.view) query false

/-- The legacy `LLSFRefBox::clips_mongodb_replace`: the builder's object, as a replacement. -/
def clipsMongodbReplace (enabled : Bool) (legacyParse : String → Option BsonDocument)
    (collection : String) (bson : Option BsonBuilder) (query : ClipsArg) : Issued :=
  match bson with
  | none => .undefined
  | some doc => mongodbUpdate enabled legacyParse collection doc.view query false

end Legacy

/-! ## The two versions compared -/

/-- Where the two parsers read the query alike, the two `mongodb_update`s issue the same
request but for its update document. -/
theorem mongodbUpdate_eq_legacy {parse legacyParse : String → Option BsonDocument}
    {query : ClipsArg} (sameQuery : queryDocument parse query = queryDocument legacyParse query)
    (enabled : Bool) (collection : String) (doc obj : BsonDocument) (upsert : Bool) :
    mongodbUpdate enabled parse collection doc query upsert =
      (Legacy.mongodbUpdate enabled legacyParse collection obj query upsert).setUpdate
        (setDocument doc) := by
  unfold mongodbUpdate Legacy.mongodbUpdate
  rw [sameQuery]
  cases enabled <;> cases queryDocument legacyParse query <;> simp [Issued.setUpdate, Issued.ofOption]

theorem Legacy.mongodbUpdate_setUpdate (enabled : Bool) (legacyParse : String → Option BsonDocument)
    (collection : String) (obj : BsonDocument) (query : ClipsArg) (upsert : Bool) :
    (Legacy.mongodbUpdate enabled legacyParse collection obj query upsert).setUpdate obj =
      Legacy.mongodbUpdate enabled legacyParse collection obj query upsert := by
  unfold Legacy.mongodbUpdate
  cases enabled <;> cases queryDocument legacyParse query <;> rfl

theorem setDocument_ne (d : BsonDocument) : setDocument d ≠ d := by
  intro same
  have size := congrArg sizeOf same
  rw [← same] at size
  simp [setDocument] at size
  omega

/-- For every collection, builder `d` and query that the two drivers read alike (every
builder handle, and every JSON text on which `bsoncxx::from_json` and `mongo::fromjson`
agree), `mongodb-update` issues what it issued with the legacy driver, while
`mongodb-upsert` and `mongodb-replace`, which used to send `d` as a replacement document, now
send `{$set: d}`, which is never `d`. -/
theorem mongodb_migration_wraps_in_set (enabled : Bool) (parse legacyParse : String → Option BsonDocument)
    (collection : String) (d : BsonBuilder) (query : ClipsArg)
    (sameQuery : queryDocument parse query = queryDocument legacyParse query) :
    clipsMongodbUpdate enabled parse collection (some d) query =
        Legacy.clipsMongodbUpdate enabled legacyParse collection (some d) query ∧
      clipsMongodbUpsert enabled parse collection (some d) query =
        (Legacy.clipsMongodbUpsert enabled legacyParse collection (some d) query).setUpdate
          (setDocument d.view) ∧
      clipsMongodbReplace enabled parse collection (some d) query =
        (Legacy.clipsMongodbReplace enabled legacyParse collection (some d) query).setUpdate
          (setDocument d.view) ∧
      setDocument d.view ≠ d.view := by
  refine ⟨?_, mongodbUpdate_eq_legacy sameQuery .., mongodbUpdate_eq_legacy sameQuery ..,
    setDocument_ne d.view⟩
  rw [clipsMongodbUpdate, Legacy.clipsMongodbUpdate,
    mongodbUpdate_eq_legacy sameQuery _ _ _ (setDocument d.view), Legacy.mongodbUpdate_setUpdate]

theorem upsert_sends_set_document :
    let d : BsonBuilder := ⟨[("a", .int64 1)]⟩
    let q : ClipsArg := .externalAddress ⟨[("team", .utf8 "CYAN")]⟩
    queryDocument (fun _ => some []) q = queryDocument (fun _ => none) q ∧
      clipsMongodbUpsert true (fun _ => some []) "game" (some d) q =
        (Legacy.clipsMongodbUpsert true (fun _ => none) "game" (some d) q).setUpdate
          (setDocument d.view) :=
  ⟨rfl, (mongodb_migration_wraps_in_set true (fun _ => some []) (fun _ => none) "game"
    ⟨[("a", .int64 1)]⟩ (.externalAddress ⟨[("team", .utf8 "CYAN")]⟩) rfl).2.1⟩

end RcllRefBox
