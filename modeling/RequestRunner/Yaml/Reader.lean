import RequestRunner.Fault
import RequestRunner.Yaml.Cursor

/-!
# Reading YAML documents

`Yaml.read?` reads a text that holds one document: block collections, which nest by columns, flow
collections, which nest by brackets, and scalars. A document without content is null. Among what
makes a text malformed are a key that stands twice in one map, a tab in an indentation, a bracket or
quote that is not closed, and a line whose column belongs to no open collection.

Anchors, tags, block scalars, explicit keys and directives are not read. The executable reads YAML
this way; nothing else depends on it.
-/

set_option autoImplicit false

namespace RequestRunner.Yaml

/-- The entries of a map that is being read, the last one first: the key as a scalar, and its value. -/
abbrev Entries := List (Datum × Datum)

/-- Adds an entry; a key that is there already makes the map malformed. -/
def addEntry (key value : Datum) (entries : Entries) : Read Entries := do
  guard (!entries.any fun (other, _) => sameKey other key)
  pure ((key, value) :: entries)

/-- The map of its entries. Keys of one name are one field. -/
def mapOf (entries : Entries) : Read Datum := do
  let fields ← entries.reverse.mapM fun (key, value) =>
    match keyText key with
    | some name => pure (name, value)
    | none => failure
  pure (.object (Fields.ofEntries fields))

/-- The cursor stands at a dash that begins an item. -/
def atDash (cursor : Cursor) : Bool :=
  match cursor.rest with
  | '-' :: rest => breaksHere rest
  | _ => false

/-- The cursor stands at a quote. -/
def atQuote (cursor : Cursor) : Bool :=
  cursor.rest.head? == some '"' || cursor.rest.head? == some '\''

/-- The cursor stands at an opening bracket. -/
def atOpening (cursor : Cursor) : Bool :=
  cursor.rest.head? == some '[' || cursor.rest.head? == some '\x7b'

/-- Skips the gap inside a flow collection. Lines that it goes on to must be indented by `floor`
columns; the bracket that closes the outermost collection may stand one column before. -/
def flowGap (floor depth : Nat) : Read Unit := do
  let between ← gap
  let cursor ← get
  let closes := cursor.rest.head? == some ']' || cursor.rest.head? == some '\x7d'
  -- only the outermost bracket may close one column further left
  guard (between.breaks == 0 || floor ≤ between.indent ||
    (closes && depth == 1 && floor ≤ between.indent + 1))
  guard (!cursor.atMark)

mutual

/-- A value inside a flow collection: a collection, or a scalar; nothing stands for null. -/
def flowValue (floor : Nat) : Nat → Nat → Read Datum
  | 0, _ => failure
  | n + 1, depth => do
    let cursor ← get
    if atOpening cursor then flow floor n (depth + 1)
    else if atQuote cursor then quoted floor
    else if beginsPlain true cursor.rest then plain true floor
    else pure .null
termination_by structural fuel => fuel

/-- The items of a flow list after those already read, the last one first. -/
def flowItems (floor : Nat) : Nat → Nat → List Datum → Read Datum
  | 0, _, _ => failure
  | n + 1, depth, done => do
    flowGap floor depth
    let cursor ← get
    match cursor.rest with
    | ']' :: _ =>
      skip 1
      pure (.array done.reverse)
    | _ =>
      guard (cursor.rest.head? != some ',')
      let json := atQuote cursor || atOpening cursor
      let item ← flowValue floor n depth
      flowGap floor depth
      let item ← flowPair floor n depth json item
      flowGap floor depth
      let after ← get
      guard (after.rest.length < cursor.rest.length)
      match after.rest with
      | ',' :: _ =>
        skip 1
        flowItems floor n depth (item :: done)
      | ']' :: _ =>
        skip 1
        pure (.array (item :: done).reverse)
      | _ => failure
termination_by structural fuel => fuel

/-- An item of a flow list that turns out to be the key of a map with one entry. -/
def flowPair (floor : Nat) : Nat → Nat → Bool → Datum → Read Datum
  | 0, _, _, _ => failure
  | n + 1, depth, json, item => do
    match (← get).rest with
    | ':' :: rest =>
      guard (json || endsKey true rest)
      skip 1
      flowGap floor depth
      let value ← flowValue floor n depth
      mapOf [(item, value)]
    | _ => pure item
termination_by structural fuel => fuel

/-- The entries of a flow map after those already read. -/
def flowEntries (floor : Nat) : Nat → Nat → Entries → Read Datum
  | 0, _, _ => failure
  | n + 1, depth, done => do
    flowGap floor depth
    let cursor ← get
    match cursor.rest with
    | '\x7d' :: _ =>
      skip 1
      mapOf done
    | _ =>
      guard (cursor.rest.head? != some ',')
      let json := atQuote cursor || atOpening cursor
      let key ← flowValue floor n depth
      flowGap floor depth
      let value ← flowEntryValue floor n depth json
      let entries ← addEntry key value done
      flowGap floor depth
      let after ← get
      guard (after.rest.length < cursor.rest.length)
      match after.rest with
      | ',' :: _ =>
        skip 1
        flowEntries floor n depth entries
      | '\x7d' :: _ =>
        skip 1
        mapOf entries
      | _ => failure
termination_by structural fuel => fuel

/-- The value of an entry of a flow map; an entry without a colon has null. -/
def flowEntryValue (floor : Nat) : Nat → Nat → Bool → Read Datum
  | 0, _, _ => failure
  | n + 1, depth, json => do
    match (← get).rest with
    | ':' :: rest =>
      guard (json || endsKey true rest)
      skip 1
      flowGap floor depth
      flowValue floor n depth
    | _ => pure .null
termination_by structural fuel => fuel

/-- A flow collection at the cursor. -/
def flow (floor : Nat) : Nat → Nat → Read Datum
  | 0, _ => failure
  | n + 1, depth => do
    match (← get).rest with
    | '[' :: _ =>
      skip 1
      flowItems floor n depth []
    | '\x7b' :: _ =>
      skip 1
      flowEntries floor n depth []
    | _ => failure
termination_by structural fuel => fuel

end

/-- A key at the cursor, up to behind its colon, if there is one on the line. -/
def key? (floor : Nat) : Read (Option Datum) := do
  let before ← get
  -- without a colon behind it the text is no key, and the cursor goes back
  let found ← if atQuote before then
      (fun cursor => match (some <$> quoted floor) cursor with
        | some (key, after) =>
          -- a key does not reach over lines
          if (before.rest.take (before.rest.length - after.rest.length)).contains '\n' then
            some (none, before)
          else some (key, after)
        | none => some (none, before))
    else if beginsPlain false before.rest then
      (fun text => some (ofPlain text)) <$> plainOnLine false
    else if before.rest.head? == some ':' then pure (some .null)
    else pure none
  whites
  match found, (← get).rest with
  | some key, ':' :: rest =>
    if breaksHere rest then
      skip 1
      pure (some key)
    else
      set before
      pure none
  | _, _ =>
    set before
    pure none

/-- The next token, if there is one, begins a line and stands at a column; a column further right
belongs to no collection, and neither does a token on the line of the one before. -/
def nextAt (column : Nat) : Read Bool := do
  let before ← get
  let between ← gap
  let cursor ← get
  if cursor.atEnd || (between.breaks != 0 && cursor.column < column) then
    set before
    pure false
  else
    -- a column that no open collection has is malformed
    guard (between.breaks != 0 && cursor.column == column && !between.tabbed)
    pure true

mutual

/-- A node at the cursor. `fresh` says that a block collection may begin here. -/
def block : Nat → Nat → Bool → Read Datum
  | 0, _, _ => failure
  | n + 1, floor, fresh => do
    let cursor ← get
    if atDash cursor then
      guard fresh
      listItems n cursor.column []
    else
      match ← key? floor with
      | some key =>
        guard fresh
        mapEntries n cursor.column key []
      | none =>
        if atOpening cursor then flow floor (2 * cursor.rest.length + 2) 1
        else if atQuote cursor then quoted floor
        else plain false floor
termination_by structural fuel => fuel

/-- The value of an entry whose colon was just read, in a map at a column. -/
def mapValue : Nat → Nat → Read Datum
  | 0, _ => failure
  | n + 1, column => do
    let before ← get
    let between ← gap
    let cursor ← get
    if cursor.atEnd then
      set before
      pure .null
    -- behind the colon, on its line, no block collection begins
    else if between.breaks == 0 then block n (column + 1) false
    else if column < between.indent then block n (column + 1) (!between.tabbed)
    else
      guard (!between.tabbed)
      -- a list may stand in the column of the key it belongs to
      if cursor.column == column && atDash cursor then listItems n column []
      else
        set before
        pure .null
termination_by structural fuel => fuel

/-- The entries of a block map at a column, from behind the colon of a key on. -/
def mapEntries : Nat → Nat → Datum → Entries → Read Datum
  | 0, _, _, _ => failure
  | n + 1, column, key, done => do
    let value ← mapValue n column
    let entries ← addEntry key value done
    if ← nextAt column then
      guard (!atDash (← get))
      match ← key? (column + 1) with
      | some key => mapEntries n column key entries
      | none => failure
    else mapOf entries
termination_by structural fuel => fuel

/-- The items of a block list at a column, from a dash on, after those already read. -/
def listItems : Nat → Nat → List Datum → Read Datum
  | 0, _, _ => failure
  | n + 1, column, done => do
    skip 1
    let item ← listItem n column
    let before ← get
    if ← nextAt column then
      if atDash (← get) then listItems n column (item :: done)
      else
        set before
        pure (.array (item :: done).reverse)
    else pure (.array (item :: done).reverse)
termination_by structural fuel => fuel

/-- An item whose dash was just read, in a list at a column. -/
def listItem : Nat → Nat → Read Datum
  | 0, _ => failure
  | n + 1, column => do
    let before ← get
    let between ← gap
    let cursor ← get
    if cursor.atEnd then
      set before
      pure .null
    -- behind a dash a collection may begin on the same line, but not after a tab
    else if between.breaks == 0 then block n (column + 1) (!between.tabbed)
    else if column < between.indent then block n (column + 1) (!between.tabbed)
    else
      guard (!between.tabbed)
      set before
      pure .null
termination_by structural fuel => fuel

end

/-- The content of a document: null, or a node. -/
def content (size : Nat) (fresh : Bool) : Read Datum := do
  let before ← get
  let between ← gap
  let cursor ← get
  if cursor.atEnd then
    set before
    pure .null
  else block size 0 ((fresh || between.breaks != 0) && !between.tabbed)

/-- What may follow the content: the mark that ends the document, and comments. -/
def ending : Read Unit := do
  let _ ← gap
  let cursor ← get
  if cursor.rest.isEmpty then pure ()
  else
    guard (cursor.atMark && cursor.rest.head? == some '.')
    skip 3
    let _ ← gap
    guard (← upcoming).isEmpty

/-- One document, with the mark that may begin it. -/
def document (size : Nat) : Read Datum := do
  let before ← get
  let _ ← gap
  let cursor ← get
  let marked := cursor.atMark && cursor.rest.head? == some '-'
  -- behind the mark, on its line, no block collection begins
  if marked then skip 3 else set before
  let value ← content size (!marked)
  ending
  pure value

/-- The text with every line break a single character, and without the byte order mark that may begin
it. -/
def normalize (s : List Char) : List Char :=
  let s := Text.replaceEach '\r' '\n' '\n' s
  if s.head?.any (fun c => c.toNat == 0xFEFF) then s.drop 1 else s

/-- The value of a text. -/
def read? (s : String) : Option Datum :=
  let s := normalize s.toList
  ((document (4 * s.length + 4)).run ⟨s, 0⟩).map (·.1)

/-- The value of a text, or the fault of a text that is not read. -/
def read (s : String) : Except Fault Datum :=
  match read? s with
  | some value => .ok value
  | none => .error (.raised "YAMLParseError" "Malformed YAML")

end RequestRunner.Yaml
