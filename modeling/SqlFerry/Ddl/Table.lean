import SqlFerry.Ddl.Column

/-!
# Table definitions

Tables from `CREATE TABLE`, indexes from `CREATE INDEX`, and the clauses of `ALTER TABLE`. A table
is built step by step; what was built before a fault stays.
-/

namespace SqlFerry.Ddl

open Text Pattern Sql

abbrev Building := ExceptT Fault (StateM Table)

namespace Building

def change (f : Table → Except Refusal Table) : Building Unit := do
  match f (← get) with
  | .ok t => set t
  | .error why => throw (.refused why)

def add : Extra → (column : String) → Building Unit
  | .primaryKey, column => change (·.setPrimaryKey [column])
  | .constraint c, _ => change (·.addConstraint c)

def addColumn (item : Chars) : Building Unit := do
  match ← readColumn item with
  | none => return
  | some (c, extras) =>
    change (·.addColumn c)
    extras.forM (add · c.name)

def itemHead : Pattern :=
  opt (choice [word "KEY", word "INDEX"] ++ blanks1) ++ opt (ident ++ blanks) ++
    opt (word "USING" ++ blanks1 ++ plus wordChar ++ blanks) ++ char '('

/-- Whether an item of a definition is about the table and not a column. A column may be named
`key`, `index` or `unique` if its type takes a number. -/
def isTableItem (item : Chars) : Bool :=
  let item := trimLeft item
  let first := item.takeWhile (!isBlank ·)
  let rest := trimLeft (item.drop first.length)
  let first := upper (ofChars first)
  if ["PRIMARY", "FOREIGN", "CONSTRAINT", "CHECK", "FULLTEXT", "SPATIAL", "EXCLUDE"].contains first
  then true
  else if ["UNIQUE", "KEY", "INDEX"].contains first then
    match itemHead.match? rest with
    | some m => !((trimLeft m.rest).head?.map isAsciiDigit).getD false
    | none => false
  else false

def constraintName : Pattern :=
  word "CONSTRAINT" ++ blanks1 ++ capture 1 ident ++ blanks1

def indexHead : Pattern :=
  opt (capture 1 ident) ++ blanks ++
    opt (word "USING" ++ blanks1 ++ capture 2 (plus wordChar) ++ blanks) ++ char '('

def groupAt (cs : Chars) (m : Match) : Chars × Chars :=
  match closing? (cs.drop (m.stop - 1)) with
  | some _ => group (cs.drop (m.stop - 1))
  | none => ([], cs)

def addIndexItem (origin : Dialect) (name : Option String) (body : Chars) :
    Building Unit := do
  let opening := upper (ofChars body)
  let kinds : List (String × Index.Kind) :=
    [("UNIQUE", .unique), ("FULLTEXT", .fulltext), ("SPATIAL", .spatial)]
  let (kind, body) := match kinds.find? fun k => startsWith k.1.toList opening.toList with
    | some (keyword, kind) => (kind, trim (body.drop keyword.length))
    | none => (Index.Kind.plain, body)
  let body := match (choice [word "KEY", word "INDEX"] ++ edge ++ blanks).match? body with
    | some m => m.rest
    | none => body
  match indexHead.match? body with
  | none => return
  | some m =>
    let (list, rest) := groupAt body m
    let (columns, expression) ← indexColumns list
    let own := (m.group? 1).map unquote
    let name := if own.isSome then own else name
    let method := ((m.group? 2).map ofChars).or (method? rest)
    if kind == .unique && own.isNone && !columns.isEmpty then
      change (·.addConstraint { name, kind := .unique, columns := columns.map (·.name) })
    else
      let table := (← get).name
      change (·.addIndex
        { name := if given name then name.getD "" else indexName table columns
          kind, columns, expression, method := method.map lower
          comment := comment? rest, origin := some origin })

def addNamed (origin : Dialect) (name : Option String) (body : Chars) : Building Unit := do
  let opens (keyword : String) : Bool := startsWith keyword.toList (upper (ofChars body)).toList
  if opens "PRIMARY KEY" then
    match find? ['('] body with
    | none => throw (.refused .noParenthesis)
    | some i =>
      let (columns, _) ← indexColumns (group (body.drop i)).1
      change (·.setPrimaryKey (columns.map (·.name)))
  else if opens "FOREIGN KEY" then
    let c ← foreignKey name (body.drop "FOREIGN KEY".length)
    change (·.addConstraint c)
  else if opens "CHECK" then
    let expression := ofChars (trim (inner (trim (body.drop "CHECK".length))))
    let c ← Constraint.checked { name, kind := .check, expression := some expression }
    change (·.addConstraint c)
  else if opens "EXCLUDE" then return
  else addIndexItem origin name body

def addItem (origin : Dialect) (item : Chars) : Building Unit :=
  let body := trim item
  match constraintName.match? body with
  | some m => addNamed origin (some (unquote (m.group 1))) (trim m.rest)
  | none => addNamed origin none body

def replaceColumn (c : Column) : Building Unit := do
  let t ← get
  match t.columns.findIdx? (sameName ·.name c.name) with
  | some i => set { t with columns := t.columns.set i c }
  | none => change (·.addColumn c)

def setDefault : Pattern :=
  word "ALTER" ++ blanks1 ++ opt (word "COLUMN" ++ blanks1) ++ capture 1 ident ++ blanks1 ++
    phrase ["SET", "DEFAULT"] ++ blanks1

/-- Carries out one clause of `ALTER TABLE`; clauses of other kinds change nothing. -/
def alter (origin : Dialect) (clause : Chars) : Building Unit := do
  let opens (keyword : String) : Bool := startsWith keyword.toList (upper (ofChars clause)).toList
  if opens "ADD COLUMN" then addColumn (trim (clause.drop "ADD COLUMN".length))
  else if opens "ADD " then
    let item := trim (clause.drop "ADD ".length)
    if isTableItem item then addItem origin item else addColumn item
  else if opens "MODIFY COLUMN" || opens "MODIFY " then
    let opening := word "MODIFY" ++ blanks1 ++ opt (word "COLUMN" ++ blanks1)
    let item := match opening.match? clause with
      | some m => m.rest
      | none => clause
    match ← readColumn item with
    | some (c, _) => replaceColumn c
    | none => return
  else
    match setDefault.match? clause with
    | none => return
    | some m =>
      let t ← get
      let update (c : Column) : Column :=
        normalizeSerial { c with default := some (ofChars (trim m.rest)) }
      match t.columns.findIdx? (sameName ·.name (unquote (m.group 1))) with
      | none => return
      | some i => set { t with columns := t.columns.modify i update }

end Building

def readTable (origin : Dialect) (sql : Chars) : Except Fault (Option Table) :=
  let sql := trim sql
  match createTable.match? sql with
  | none => .ok none
  | some m =>
    let opening := m.stop - 1
    match closing? (sql.drop opening) with
    | none => .ok none
    | some i =>
      let parts := items (slice sql (opening + 1) (opening + i))
      let (about, columns) := parts.partition Building.isTableItem
      let build : Building Unit := do
        columns.forM Building.addColumn
        about.forM (Building.addItem origin)
      let empty : Table := { name := unquote (m.group 1), definition := some (ofChars sql) }
      match build.run empty with
      | (.error e, _) => .error e
      | (.ok (), t) => .ok (some { t with options := tableOptions (sql.drop (opening + i + 1)) })

def createIndexHead : Pattern :=
  word "CREATE" ++ blanks1 ++
    opt (capture 1 (choice [word "UNIQUE", word "FULLTEXT", word "SPATIAL"] ++ blanks1)) ++
    word "INDEX" ++ blanks1 ++ opt (word "CONCURRENTLY" ++ blanks1) ++
    opt (phrase ["IF", "NOT", "EXISTS"] ++ blanks1) ++ opt (capture 2 qname) ++ blanks ++
    word "ON" ++ blanks1 ++ opt (word "ONLY" ++ blanks1) ++ capture 3 qname ++ blanks ++
    opt (word "USING" ++ blanks1 ++ capture 4 (plus wordChar) ++ blanks) ++ char '('

/-- Reads `CREATE INDEX`: the name of the table and the index. -/
def readIndex (origin : Dialect) (sql : Chars) : Except Fault (Option (String × Index)) := do
  let sql := trim sql
  match createIndexHead.match? sql with
  | none => return none
  | some m =>
    let opening := m.stop - 1
    match closing? (sql.drop opening) with
    | none => return none
    | some _ =>
      let (list, rest) := group (sql.drop opening)
      let (columns, expression) ← indexColumns list
      let condition := ((edge ++ word "WHERE" ++ blanks1).search? rest).map fun w =>
        ofChars (trim w.rest)
      let table := unquote (m.group 3)
      let method := (((m.group? 4).map ofChars).or (method? rest)).map lower
      let searched := (expression.map fun e => Text.contains (lower e) "to_tsvector").getD false
      let kind : Index.Kind :=
        if origin == .postgresql && method == some "gin" && searched then .fulltext
        else match upper (ofChars (trim (m.group 1))) with
          | "UNIQUE" => .unique
          | "FULLTEXT" => .fulltext
          | "SPATIAL" => .spatial
          | _ => .plain
      return some (table,
        { name := ((m.group? 2).map unquote).getD (indexName table columns)
          kind, columns, expression, condition, method, comment := comment? rest
          origin := some origin })

end SqlFerry.Ddl
