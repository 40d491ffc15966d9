import SqlFerry.Dialect

/-!
# Names of column types

The families that types belong to in every dialect, how a type is called in another dialect, which
types take arguments, and how each dialect expresses the features of a column.
-/

namespace SqlFerry

open Text

inductive TypeFamily where
  | smallint
  | integer
  | bigint
  | decimal
  | float
  | boolean
  | string
  | text
  | binary
  | date
  | time
  | datetime
  | json
  | uuid
  | enumeration
  | set
  | spatial
  | array
  | other
  deriving DecidableEq, Repr

namespace TypeFamily

def name : TypeFamily → String
  | smallint => "smallint"
  | integer => "integer"
  | bigint => "bigint"
  | decimal => "decimal"
  | float => "float"
  | boolean => "boolean"
  | string => "string"
  | text => "text"
  | binary => "binary"
  | date => "date"
  | time => "time"
  | datetime => "datetime"
  | json => "json"
  | uuid => "uuid"
  | enumeration => "enum"
  | set => "set"
  | spatial => "spatial"
  | array => "array"
  | other => "other"

def members : List (TypeFamily × List String) := [
  (smallint, ["tinyint", "smallint", "int2", "smallserial", "year"]),
  (integer, ["int", "integer", "mediumint", "int4", "serial"]),
  (bigint, ["bigint", "int8", "bigserial"]),
  (decimal, ["decimal", "numeric", "money"]),
  (float, ["float", "double", "double precision", "real", "float4", "float8"]),
  (boolean, ["bool", "boolean", "bit"]),
  (string, ["char", "varchar", "character", "character varying", "citext", "inet", "cidr",
    "macaddr"]),
  (text, ["text", "tinytext", "mediumtext", "longtext", "clob", "tsvector", "xml"]),
  (binary, ["binary", "varbinary", "blob", "tinyblob", "mediumblob", "longblob", "bytea"]),
  (date, ["date"]),
  (time, ["time", "timetz", "time with time zone", "time without time zone", "interval"]),
  (datetime, ["datetime", "timestamp", "timestamptz", "timestamp with time zone",
    "timestamp without time zone"]),
  (json, ["json", "jsonb"]),
  (uuid, ["uuid"]),
  (enumeration, ["enum"]),
  (set, ["set"]),
  (spatial, ["geometry", "point", "linestring", "polygon", "multipoint", "multilinestring",
    "multipolygon", "geometrycollection"])]

end TypeFamily

namespace TypeName

def normal (raw : String) : String :=
  oneLine (lower raw)

def family (raw : String) : TypeFamily :=
  let raw := normal raw
  ((TypeFamily.members.find? (·.2.contains raw)).map (·.1)).getD .other

def renamed (source target : Dialect) : List (String × String) :=
  match source, target with
  | .mysql, .sqlite => [
    ("tinyint", "integer"), ("smallint", "integer"), ("mediumint", "integer"), ("int", "integer"),
    ("bigint", "integer"), ("decimal", "real"), ("numeric", "real"), ("float", "real"),
    ("double", "real"), ("bit", "integer"), ("bool", "integer"), ("boolean", "integer"),
    ("char", "text"), ("varchar", "text"), ("tinytext", "text"), ("mediumtext", "text"),
    ("longtext", "text"), ("enum", "text"), ("set", "text"), ("json", "text"), ("date", "text"),
    ("time", "text"), ("datetime", "text"), ("timestamp", "text"), ("year", "integer"),
    ("binary", "blob"), ("varbinary", "blob"), ("tinyblob", "blob"), ("mediumblob", "blob"),
    ("longblob", "blob")]
  | .mysql, .postgresql => [
    ("tinyint", "smallint"), ("mediumint", "integer"), ("int", "integer"),
    ("double", "double precision"), ("float", "real"), ("bit", "boolean"), ("bool", "boolean"),
    ("datetime", "timestamp"), ("year", "smallint"), ("tinytext", "text"), ("mediumtext", "text"),
    ("longtext", "text"), ("binary", "bytea"), ("varbinary", "bytea"), ("tinyblob", "bytea"),
    ("blob", "bytea"), ("mediumblob", "bytea"), ("longblob", "bytea"), ("enum", "text"),
    ("set", "text")]
  | .postgresql, .mysql => [
    ("serial", "int"), ("bigserial", "bigint"), ("smallserial", "smallint"), ("integer", "int"),
    ("int4", "int"), ("int8", "bigint"), ("int2", "smallint"), ("double precision", "double"),
    ("float8", "double"), ("float4", "float"), ("real", "float"), ("numeric", "decimal"),
    ("boolean", "tinyint"), ("bool", "tinyint"), ("bytea", "longblob"), ("timestamp", "datetime"),
    ("timestamp without time zone", "datetime"), ("timestamptz", "datetime"),
    ("timestamp with time zone", "datetime"), ("time without time zone", "time"),
    ("timetz", "time"), ("time with time zone", "time"), ("interval", "varchar"), ("uuid", "char"),
    ("jsonb", "json"), ("character varying", "varchar"), ("character", "char"), ("citext", "text"),
    ("inet", "varchar"), ("cidr", "varchar"), ("macaddr", "varchar"), ("money", "decimal"),
    ("tsvector", "text"), ("xml", "text")]
  | .postgresql, .sqlite => [
    ("serial", "integer"), ("bigserial", "integer"), ("smallserial", "integer"),
    ("smallint", "integer"), ("int", "integer"), ("int2", "integer"), ("int4", "integer"),
    ("int8", "integer"), ("bigint", "integer"), ("numeric", "real"), ("decimal", "real"),
    ("double precision", "real"), ("float8", "real"), ("float4", "real"), ("boolean", "integer"),
    ("bool", "integer"), ("bytea", "blob"), ("uuid", "text"), ("json", "text"), ("jsonb", "text"),
    ("varchar", "text"), ("character varying", "text"), ("char", "text"), ("character", "text"),
    ("citext", "text"), ("date", "text"), ("time", "text"), ("timetz", "text"),
    ("timestamp", "text"), ("timestamptz", "text"), ("timestamp without time zone", "text"),
    ("timestamp with time zone", "text"), ("interval", "text"), ("inet", "text"), ("cidr", "text"),
    ("money", "real"), ("tsvector", "text"), ("xml", "text")]
  | .sqlite, .mysql => [
    ("integer", "int"), ("real", "double"), ("numeric", "decimal"), ("blob", "longblob"),
    ("boolean", "tinyint")]
  | .sqlite, .postgresql => [
    ("real", "double precision"), ("blob", "bytea"), ("datetime", "timestamp"),
    ("tinyint", "smallint"), ("double", "double precision")]
  | _, _ => []

/-- The name of a type in the dialect `target`; types without one keep theirs. -/
def convert (raw : String) (source target : Dialect) : String :=
  let raw := normal raw
  ((renamed source target).lookup raw).getD raw

def forcedLength? (raw : String) : (source target : Dialect) → Option Int
  | .postgresql, .mysql =>
    [("uuid", 36), ("interval", 64), ("inet", 45), ("cidr", 45), ("macaddr", 17), ("boolean", 1),
     ("bool", 1)].lookup raw
  | .sqlite, .mysql => [("boolean", 1)].lookup raw
  | _, _ => none

def forArray? : Dialect → Option String
  | .mysql => some "json"
  | .sqlite => some "text"
  | .postgresql => none

def serialOf? : TypeFamily → Option String
  | .smallint => some "smallserial"
  | .integer => some "serial"
  | .bigint => some "bigserial"
  | _ => none

def serialBase? : String → Option String
  | "serial" => some "integer"
  | "bigserial" => some "bigint"
  | "smallserial" => some "smallint"
  | _ => none

def takesLength (raw : String) : Bool :=
  ["char", "varchar", "character", "character varying", "binary", "varbinary", "bit",
   "bit varying", "nchar", "nvarchar"].contains raw

def takesPrecision (raw : String) : Bool :=
  ["decimal", "numeric"].contains raw

/-- Whether a type whose first word is `head` takes the number of digits of its seconds. -/
def takesTimePrecision (head : String) : Bool :=
  ["time", "timestamp", "datetime", "timestamptz", "timetz"].contains head

def isUuidDefault (text : String) : Bool :=
  ["gen_random_uuid()", "uuid_generate_v4()", "uuid()", "(uuid())"].contains text

end TypeName

inductive Feature where
  | autoIncrement
  | enumeration
  | boolean
  | uuidDefault
  | timestampOnUpdate
  deriving DecidableEq, Repr

namespace Feature

def name : Feature → String
  | autoIncrement => "auto_increment"
  | enumeration => "enum"
  | boolean => "boolean"
  | uuidDefault => "uuid_default"
  | timestampOnUpdate => "current_timestamp_on_update"

def all : List Feature :=
  [autoIncrement, enumeration, boolean, uuidDefault, timestampOnUpdate]

def ofName? (s : String) : Option Feature :=
  all.find? (·.name == s)

/-- How a dialect expresses a feature, if it can; where the feature comes from does not matter. -/
def expression? : Feature → Dialect → Option String
  | autoIncrement, .postgresql => some "serial"
  | autoIncrement, .mysql => some "AUTO_INCREMENT"
  | autoIncrement, .sqlite => some "INTEGER PRIMARY KEY AUTOINCREMENT"
  | enumeration, .mysql => some "native"
  | enumeration, _ => some "check"
  | boolean, .postgresql => some "TRUE|FALSE"
  | boolean, _ => some "1|0"
  | uuidDefault, .postgresql => some "gen_random_uuid()"
  | uuidDefault, .mysql => some "(UUID())"
  | uuidDefault, .sqlite => none
  | timestampOnUpdate, .mysql => some "ON UPDATE CURRENT_TIMESTAMP"
  | timestampOnUpdate, _ => none

end Feature

end SqlFerry
