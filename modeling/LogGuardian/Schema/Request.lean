import LogGuardian.Parser.RoundTrip
import LogGuardian.Schema.Fields

/-!
# Validating a request against the schema
-/

namespace LogGuardian

inductive SchemaParamLocation where
  | header | query | path
  deriving DecidableEq, Repr

structure SchemaParameter where
  name : Bytes
  location : SchemaParamLocation
  type : SchemaFieldType
  required : Bool
  deriving DecidableEq, Repr

structure SchemaEndpoint where
  path : Bytes
  method : Bytes
  fields : List SchemaField
  params : List SchemaParameter
  rateLimitRpm : ℕ
  strict : Bool
  length_fields : fields.length ≤ 32
  deriving DecidableEq, Repr

/-- A loaded registry. -/
structure SchemaRegistry where
  endpoints : List SchemaEndpoint
  strict : ∀ endpoint ∈ endpoints, endpoint.strict = true

def cleanPath (path : Bytes) : Bytes :=
  copyInto 128 (path.takeWhile fun byte => byte ≠ chr '?' ∧ byte ≠ chr '#')

/-- The loop of `path_match`. -/
def pathLoop : Bool → Bytes → Bytes → Bool
  | _, [], actual => actual = []
  | true, byte :: templ, actual => pathLoop (byte ≠ chr '\x7d') templ actual
  | false, byte :: templ, actual =>
    match actual with
    | [] => false
    | head :: rest =>
      if byte = chr '\x7b' then pathLoop true templ ((head :: rest).dropWhile (· ≠ chr '/'))
      else if byte = head then pathLoop false templ rest
      else false

def pathMatch (templ actual : Bytes) : Bool := pathLoop false templ (cleanPath actual)

/-- `strtol` has read a digit. -/
def startsWithNumber (text : Bytes) : Bool :=
  let trimmed := text.dropWhile isSpace
  let digits :=
    if trimmed.head? = some (chr '-') ∨ trimmed.head? = some (chr '+') then trimmed.drop 1
    else trimmed
  digits.head?.any isDigit

/-- The loop of `path_param_long`. -/
def paramLoop (name : Bytes) : ℕ → Bytes → Bytes → Option ℤ
  | fuel + 1, byte :: templ, head :: rest =>
    if byte = chr '\x7b' then
      let pname := (templ.takeWhile (· ≠ chr '\x7d')).take 63
      let templ := templ.drop pname.length
      let templ := if templ.head? = some (chr '\x7d') then templ.drop 1 else templ
      let seg := ((head :: rest).takeWhile (· ≠ chr '/')).take 31
      let actual := (head :: rest).drop seg.length
      let actual := if actual.head? = some (chr '/') then actual.drop 1 else actual
      if pname = name then
        if startsWithNumber seg ∧ 0 < strtol seg then some (strtol seg) else none
      else paramLoop name fuel templ actual
    else if byte = head then paramLoop name fuel templ rest
    else none
  | _, _, _ => none

def pathParamLong (templ actual name : Bytes) : Option ℤ :=
  paramLoop name templ.length templ (cleanPath actual)

def behindLabel (text : Bytes) : Bytes := text.dropWhile fun byte => byte = 32 ∨ byte = chr ':'

/-- `json_find_key`. -/
def jsonFindKey (json key : Bytes) : Option Bytes :=
  (Search.find (Json.quoted key) json.dropLast).map fun position =>
    behindLabel (json.drop (position + (Json.quoted key).length))

/-- `detect_value_type` of a value that was found. -/
def detectValueType (value : Bytes) : SchemaFieldType :=
  let first := byteAt value 0
  if first = chr '"' then .string
  else if first = chr '\x7b' then .object
  else if first = chr '[' then .array
  else if first = chr 't' ∨ first = chr 'f' then .boolean
  else if first = chr 'n' then .any
  else
    let digits := if first = chr '-' then value.drop 1 else value
    let behind := byteAt (digits.dropWhile isDigit) 0
    if behind = chr '.' ∨ behind = chr 'e' ∨ behind = chr 'E' then .number else .integer

def headerGetValue (headers name : Bytes) (size : ℕ) : Option Bytes :=
  match Search.find (Json.quoted name) headers with
  | none => none
  | some position =>
    let value := behindLabel (headers.drop (position + (Json.quoted name).length))
    if value.head? = some (chr '"') then (jtReadString size value).map Prod.fst else none

def queryGetValue (path name : Bytes) (size : ℕ) : Option Bytes :=
  match strchr path (chr '?') with
  | none => none
  | some query =>
    match findLit (query.drop 1) (name ++ ascii "=") with
    | none => none
    | some found =>
      let value := copyInto size ((found.drop (name.length + 1)).takeWhile (· ≠ chr '&'))
      if value = [] then none else some value

structure RateBucket where
  key : Bytes
  windowMin : ℤ
  count : ℕ
  deriving DecidableEq, Repr

structure IdorTrack where
  key : Bytes
  ids : List ℤ
  pos : ℕ
  count : ℕ
  deriving DecidableEq, Repr

structure SchemaStats where
  total : ℕ
  blocked : ℕ
  warned : ℕ
  idor : ℕ
  rateLimited : ℕ
  deriving DecidableEq, Repr

structure SchemaWorld where
  registry : Option SchemaRegistry
  strictGlobal : Bool
  rateBuckets : ℕ → RateBucket
  idorTrack : ℕ → IdorTrack
  stats : SchemaStats

structure SchemaRequest where
  method : Bytes
  path : Bytes
  body : Bytes
  srcIp : Option Bytes
  headers : Option Bytes
  now : ℤ
  deriving DecidableEq, Repr

inductive SchemaStatus where
  | pass | warn | block | unknown
  deriving DecidableEq, Repr

structure SchemaValidationResult where
  status : SchemaStatus
  violationCount : ℕ
  reason : Bytes
  idorScore : ℤ
  fieldName : Bytes
  deriving DecidableEq, Repr

/-- `h = h * 33 + byte` over the key, in 32 bits. -/
def tableHash (key : Bytes) : ℕ :=
  key.foldl (fun hash byte => (hash * 33 + byte.toNat) % 2 ^ 32) 5381

def rateLimitExceeded (world : SchemaWorld) (request : SchemaRequest) (endpoint : SchemaEndpoint) :
    Bool × SchemaWorld :=
  match request.srcIp with
  | none => (false, world)
  | some srcIp =>
    if endpoint.rateLimitRpm = 0 then (false, world)
    else
      let key := copyInto 96 (srcIp ++ ascii "|" ++ request.method ++ ascii "|" ++ endpoint.path)
      let index := tableHash key % 512
      let old := world.rateBuckets index
      let slot : RateBucket := if old.key = key then old else ⟨key, 0, 0⟩
      let slot : RateBucket :=
        if slot.windowMin = request.now then slot
        else { slot with windowMin := request.now, count := 0 }
      let slot := { slot with count := (slot.count + 1) % 2 ^ 32 }
      (endpoint.rateLimitRpm < slot.count,
        { world with rateBuckets := Function.update world.rateBuckets index slot })

def idorBuildTrackKey (request : SchemaRequest) : Bytes :=
  let ip := (request.srcIp.filter (· ≠ [])).getD (ascii "0.0.0.0")
  let fromQuery := queryGetValue request.path (ascii "token") 128
  let token := fromQuery.getD ((request.headers.bind fun headers =>
    headerGetValue headers (ascii "Authorization") 128).getD [])
  copyInto 96 (if token = [] then ip else ip ++ ascii "|" ++ token)

def sequentialCount (slot : IdorTrack) : ℕ :=
  ((List.range slot.count).drop 1).countP fun i =>
    let prev := slot.ids.getD ((slot.pos + 16 - i - 1) % 16) 0
    let curr := slot.ids.getD ((slot.pos + 16 - i) % 16) 0
    curr - prev = 1 ∨ curr - prev = -1

def IdorTrack.push (slot : IdorTrack) (trackKey : Bytes) (idVal : ℤ) : IdorTrack :=
  let slot : IdorTrack :=
    if slot.key = trackKey then slot else ⟨trackKey, List.replicate 16 0, 0, 0⟩
  { slot with
    ids := slot.ids.set (slot.pos % 16) idVal
    pos := slot.pos + 1
    count := if slot.count < 16 then slot.count + 1 else slot.count }

def idorApplyScore (trackKey : Bytes) (idVal : ℤ)
    (state : SchemaWorld × SchemaValidationResult) : SchemaWorld × SchemaValidationResult :=
  let (world, res) := state
  if trackKey = [] ∨ idVal ≤ 0 then (world, res)
  else
    let index := tableHash trackKey % 256
    let slot := (world.idorTrack index).push trackKey idVal
    let world := { world with idorTrack := Function.update world.idorTrack index slot }
    if slot.count < 4 then (world, res)
    else
      let score := sequentialCount slot * 100 / slot.count
      let res := { res with idorScore := max (score : ℤ) res.idorScore }
      if 80 ≤ score then
        ({ world with stats :=
            { world.stats with
              idor := world.stats.idor + 1
              blocked := world.stats.blocked + if world.strictGlobal then 1 else 0 } },
          { res with
            reason := copyInto 256 (ascii "BOLA/IDOR pattern (score=" ++ numeral score ++
              ascii ", key=" ++ trackKey.take 32 ++ ascii ")")
            status := if world.strictGlobal then .block else .warn
            violationCount := res.violationCount + 1 })
      else (world, res)

def pathId (endpoint : SchemaEndpoint) (request : SchemaRequest) (param : SchemaParameter) :
    Option ℤ :=
  if param.location = .path ∧ param.type = .integer then
    pathParamLong endpoint.path request.path param.name
  else none

def bodyId (body : Bytes) (field : SchemaField) : Option ℤ :=
  if field.type = .integer then
    ((jsonFindKey body field.name).map strtol).filter (0 < ·)
  else none

def idorCheckPathAndBodyParams (endpoint : SchemaEndpoint) (request : SchemaRequest)
    (state : SchemaWorld × SchemaValidationResult) : SchemaWorld × SchemaValidationResult :=
  let inBody := if request.body = [] then [] else endpoint.fields.filterMap (bodyId request.body)
  (endpoint.params.filterMap (pathId endpoint request) ++ inBody).foldl
    (fun state idVal => idorApplyScore (idorBuildTrackKey request) idVal state) state

def SchemaParamLocation.word : SchemaParamLocation → Bytes
  | header => ascii "header"
  | query => ascii "query"
  | path => ascii "path"

def parameterValue (endpoint : SchemaEndpoint) (request : SchemaRequest) (param : SchemaParameter) :
    Option Bytes :=
  match param.location with
  | .header => request.headers.bind fun headers => headerGetValue headers param.name 256
  | .query => queryGetValue request.path param.name 256
  | .path => if pathMatch endpoint.path request.path then some [] else none

/-- What `validate_parameters` writes at the first parameter that is wrong. -/
def parameterViolation (endpoint : SchemaEndpoint) (request : SchemaRequest)
    (param : SchemaParameter) : Option SchemaValidationResult :=
  match parameterValue endpoint request param with
  | none =>
    if param.required then
      some ⟨.block, 1, copyInto 256 (ascii "Required " ++ param.location.word ++
        ascii " parameter missing: " ++ param.name), 0, copyInto 64 param.name⟩
    else none
  | some value =>
    if value ≠ [] ∧ param.type = .integer ∧ !startsWithNumber value then
      some ⟨.block, 1, copyInto 256 (ascii "Type mismatch on parameter '" ++ param.name ++
        ascii "'"), 0, []⟩
    else none

def SchemaFieldType.code : SchemaFieldType → ℕ
  | any => 0
  | string => 1
  | integer => 2
  | number => 3
  | boolean => 4
  | object => 5
  | array => 6

def accepts (declared got : SchemaFieldType) : Bool :=
  got = declared || (declared = .number && got = .integer)

def missingField (field : SchemaField) : SchemaValidationResult :=
  ⟨.block, 1, copyInto 256 (ascii "Required field missing: " ++ field.name), 0, field.name⟩

def fieldViolation (body : Bytes) (field : SchemaField) : Option SchemaValidationResult :=
  match jsonFindKey body field.name with
  | none => if field.required then some (missingField field) else none
  | some value =>
    if field.type ≠ .any ∧ !accepts field.type (detectValueType value) then
      some ⟨.block, 1, copyInto 256 (ascii "Type mismatch on field '" ++ field.name ++
        ascii "': expected " ++ numeral field.type.code ++ ascii " got " ++
        numeral (detectValueType value).code), 0, field.name⟩
    else none

def findEndpoint (registry : SchemaRegistry) (request : SchemaRequest) : Option SchemaEndpoint :=
  registry.endpoints.find? fun endpoint =>
    endpoint.method.map toLower = request.method.map toLower ∧ pathMatch endpoint.path request.path

def passedResult : SchemaValidationResult := ⟨.pass, 0, [], 0, []⟩

def blocked (world : SchemaWorld) (res : SchemaValidationResult) :
    SchemaValidationResult × SchemaWorld :=
  (res, { world with stats := { world.stats with blocked := world.stats.blocked + 1 } })

def finishRequest (endpoint : SchemaEndpoint) (request : SchemaRequest) (world : SchemaWorld) :
    SchemaValidationResult × SchemaWorld :=
  let (world, res) := idorCheckPathAndBodyParams endpoint request (world, passedResult)
  if res.violationCount = 0 then ({ res with status := .pass }, world)
  else if res.status ≠ .block then
    ({ res with status := if res.status = .pass then .warn else res.status },
      { world with stats := { world.stats with warned := world.stats.warned + 1 } })
  else (res, world)

def validateBody (endpoint : SchemaEndpoint) (request : SchemaRequest) (world : SchemaWorld) :
    SchemaValidationResult × SchemaWorld :=
  if request.body = [] then
    match endpoint.fields.find? SchemaField.required with
    | some field => blocked world (missingField field)
    | none => finishRequest endpoint request world
  else if validateUnknownBodyFields endpoint.fields (endpoint.strict || world.strictGlobal)
      request.body ≠ 0 then
    blocked world ⟨.block, 1, ascii "Unknown field in request body (strict v2)", 0, []⟩
  else
    match endpoint.fields.findSome? (fieldViolation request.body) with
    | some res => blocked world res
    | none => finishRequest endpoint request world

def validateEndpoint (endpoint : SchemaEndpoint) (request : SchemaRequest) (world : SchemaWorld) :
    SchemaValidationResult × SchemaWorld :=
  let limited := rateLimitExceeded world request endpoint
  if limited.1 then
    blocked { limited.2 with stats :=
        { limited.2.stats with rateLimited := limited.2.stats.rateLimited + 1 } }
      ⟨.block, 1, copyInto 256 (ascii "Rate limit exceeded (" ++ numeral endpoint.rateLimitRpm ++
        ascii " req/min): " ++ request.method ++ ascii " " ++ request.path), 0, []⟩
  else
    match endpoint.params.findSome? (parameterViolation endpoint request) with
    | some res => blocked limited.2 res
    | none => validateBody endpoint request limited.2

def schemaValidateRequestV2 (world : SchemaWorld) (request : SchemaRequest) :
    SchemaValidationResult × SchemaWorld :=
  let world := { world with stats := { world.stats with total := world.stats.total + 1 } }
  match world.registry with
  | none => ({ passedResult with status := .unknown }, world)
  | some registry =>
    match findEndpoint registry request with
    | none =>
      if world.strictGlobal then
        blocked world ⟨.block, 1, copyInto 256 (ascii "Unknown API endpoint (strict mode): " ++
          request.method ++ ascii " " ++ request.path), 0, []⟩
      else ({ passedResult with status := .unknown }, world)
    | some endpoint => validateEndpoint endpoint request world

end LogGuardian
