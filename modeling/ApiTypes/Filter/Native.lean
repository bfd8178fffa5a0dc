import ApiTypes.Filter.Access
import ApiTypes.Filter.Arithmetic
import ApiTypes.Filter.Matching
import ApiTypes.Filter.Sorting
import ApiTypes.Filter.Strings
import ApiTypes.Filter.Time
import ApiTypes.Json.Reader

/-!
# Native filters

The filters that are not defined by terms.  Those `onValues` get each
combination of their arguments' results, those `onFilters` the arguments
themselves.  A filter sees neither the clock nor the variables of its process:
the time is always the start of 1970, at no distance from UTC.
-/

namespace ApiTypes.Filter

inductive Native where
  | onValues (run : List Value → Value → Results)
  | onFilters (run : List (Value → Results) → Value → Results)

namespace Native

/-! ### Ways to make a native filter -/

def refuse (v : Value) (needed : String) : Except Exception Value := .error (.kind v needed)

/-- A filter without arguments. -/
def plain (f : Value → Except Exception Value) : Native := .onValues fun _ v => .ofExcept (f v)

def withArgument (f : Value → Value → Except Exception Value) : Native :=
  .onValues fun
    | [a], v => .ofExcept (f a v)
    | _, _ => .nil

def constant (w : Value) : Native := .onValues fun _ _ => .one w

def onString (f : String → Value) : Native :=
  plain fun
    | .string s => .ok (f s)
    | v => refuse v "string"

/-- A function on binary64 values. -/
def onFloat (f : Float → Value) : Native :=
  plain fun v =>
    match v.toFloat? with
    | some x => .ok (f x)
    | none => refuse v "floating-point number"

/-- A function of binary64 values. -/
def math (f : Float → Float) : Native := onFloat fun x => .ofFloat (f x)

/-- A function of two binary64 values. -/
def math2 (f : Float → Float → Float) : Native :=
  .onValues fun
    | [a, b], _ =>
      match a.toFloat?, b.toFloat? with
      | some x, some y => .one (.ofFloat (f x y))
      | none, _ => .fail (.kind a "floating-point number")
      | _, none => .fail (.kind b "floating-point number")
    | _, _ => .nil

/-- Scales a binary64 value by a power of two. -/
def scale : Native :=
  .onValues fun
    | [a, .integer n], _ =>
      match a.toFloat? with
      | some x => .one (.ofFloat (x.scaleB n))
      | none => .fail (.kind a "floating-point number")
    | [_, b], _ => .fail (.kind b "integer")
    | _, _ => .nil

/-- The part before the point, towards zero. -/
def wholePart (x : Float) : Float := if x < 0.0 then x.ceil else x.floor

/-- Rounds to the nearest integer; of two the even one. -/
def roundEven (x : Float) : Float :=
  let low := x.floor
  if x - low < 0.5 then low
  else if 0.5 < x - low then low + 1.0
  else if (low / 2.0).floor * 2.0 == low then low
  else low + 1.0

/-- The first value with the sign of the second. -/
def withSign (x y : Float) : Float :=
  if x.toBits >>> 63 == y.toBits >>> 63 then x else -x

/-- The power of two in a value, and what is left of the value. -/
def significand (x : Float) : Float × Int :=
  let (m, e) := x.frExp
  if x == 0.0 || !x.isFinite then (x, 0) else (m * 2.0, e - 1)

/-- The integer that a float is, kept within 64 bits. -/
def wordOfFloat (x : Float) : Int := x.toInt64.toInt

def rounded (f : Float → Float) : Native :=
  plain fun
    | .integer n => .ok (.integer n)
    | v =>
      match v.toFloat? with
      | some x => .ok (.integer (wordOfFloat (f x)))
      | none => refuse v "number"

/-! ### Filters on one value -/

def length : Value → Except Exception Value
  | .null => .ok (.integer 0)
  | .bool b => .error (.text ((Value.bool b).text ++ " has no length"))
  | .integer n => .ok (Value.ofInt n.natAbs)
  | .double x => .ok (.ofFloat x.toFloat.abs)
  | .decimal digits => .ok (.ofFloat (Value.readDecimal digits).abs)
  | .string s => .ok (.integer s.length)
  | .array items => .ok (.integer items.length)
  | .object members => .ok (.integer members.length)

/-- The indices of an array or the keys of an object, in their order. -/
def keys : Value → Except Exception Value
  | .array items => .ok (.array ((List.range items.length).map fun (i : Nat) => .integer i))
  | .object members => .ok (.array (members.map fun m => .string m.1))
  | v => refuse v "iterable (array or object)"

def ofText : Value → Except Exception Value
  | .string s =>
    match Json.parse s with
    | .ok j => .ok (Value.ofJson j)
    | .error _ => .error (.text ("cannot parse " ++ (Value.string s).text ++ " as JSON"))
  | v => refuse v "string"

/-- A number, also from its text. -/
def toNumber (v : Value) : Except Exception Value :=
  match v.toFloat? with
  | some _ => .ok v
  | none =>
    match ofText v with
    | .ok w => if w.toFloat?.isSome then .ok w else refuse v "number"
    | .error e => .error e

def codePoints (s : String) : Value := .array (s.toList.map fun c => .integer c.toNat)

def ofCodePoints : Value → Except Exception Value
  | .array items =>
    match Strings.ofCodePoints? items with
    | some cs => .ok (.string (String.ofList cs))
    | none => .error (.text ("cannot use " ++ (Value.array items).text ++ " as code points"))
  | v => refuse v "array"

def reverse : Value → Except Exception Value
  | .array items => .ok (.array items.reverse)
  | v => refuse v "array"

/-- The string that a base 64 text stands for. -/
def ofBase64 (v : Value) : Except Exception Value :=
  let bytes := (Strings.decode64? v.plainText.toList).map fun bytes =>
    ByteArray.mk (bytes.map fun (n : Nat) => n.toUInt8).toArray
  match bytes.bind String.fromUTF8? with
  | some s => .ok (.string s)
  | none => .error (.text ("cannot decode " ++ v.text))

def row (separator : String) (field : String → String) : Value → Except Exception Value
  | .array items => do
    let fields ← items.mapM fun v => match v with
      | .null => pure ""
      | .string s => pure (field s)
      | .array _ | .object _ => throw (Exception.text ("cannot put " ++ v.text ++ " into a row"))
      | v => pure v.text
    pure (.string (Text.joinWith separator fields))
  | v => refuse v "array"

def commandLine (v : Value) : Except Exception Value := do
  let words := match v with
    | .array items => items
    | v => [v]
  let words ← words.mapM fun w => match w with
    | .string s => pure (Strings.commandWord s)
    | .array _ | .object _ => throw (Exception.text ("cannot put " ++ w.text ++ " into a line"))
    | w => pure w.text
  pure (.string (Text.joinWith " " words))

/-! ### Filters with arguments -/

def has (key v : Value) : Except Exception Value :=
  match v, key with
  | .array items, .integer i =>
    if 0 ≤ i then .ok (.bool (i.toNat < items.length)) else .error (.access v key)
  | .object members, .string k => .ok (.bool (Members.find? members k).isSome)
  | _, _ => .error (.access v key)

mutual

/-- Whether a value contains the second one: objects and arrays part by part,
strings as text. -/
def contains : Value → Value → Bool
  | .object xs, .object ys => containsMembers xs ys
  | .array xs, .array ys => containsItems xs ys
  | .string s, .string t => Strings.contains t s
  | v, w => v.isEqual w

def containsItems (xs : List Value) : List Value → Bool
  | [] => true
  | y :: rest => (xs.any fun x => contains x y) && containsItems xs rest

def containsMembers (xs : List (String × Value)) : List (String × Value) → Bool
  | [] => true
  | (key, y) :: rest =>
    ((Members.find? xs key).any fun x => contains x y) && containsMembers xs rest

end

def stringTest (f : String → String → Bool) : Native :=
  withArgument fun a v =>
    match v, a with
    | .string s, .string t => .ok (.bool (f t s))
    | .string _, a => refuse a "string"
    | v, _ => refuse v "string"

/-- A change of a string by another; other values stay. -/
def stringChange (f : String → String → String) : Native :=
  withArgument fun a v =>
    match v, a with
    | .string s, .string t => .ok (.string (f t s))
    | v, _ => .ok v

/-- The parts of a string between a separator. -/
def split (separator v : Value) : Except Exception Value :=
  match v, separator with
  | .string s, .string t => .ok (.array ((splitText s t).map .string))
  | _, _ => .error (.text "split input and separator must be strings")

/-- The places of a part in a string or an array. -/
def indices (part v : Value) : Except Exception Value :=
  let found (places : List Nat) : Value := .array (places.map fun (i : Nat) => .integer i)
  match v, part with
  | .null, _ => .ok .null
  | .string s, .string t =>
    .ok (found (if t.isEmpty then [] else Strings.places (· == ·) t.toList s.toList 0))
  | .array items, .array part =>
    .ok (found (if part.isEmpty then [] else Strings.places Value.isEqual part items 0))
  | .array items, w => .ok (found (Strings.places Value.isEqual [w] items 0))
  | v, part => .error (.access v part)

/-- Whether numbers from `x` to `limit` go on by `step`. -/
def goesOn (limit step x : Value) : Bool :=
  match step.order (.integer 0) with
  | .gt => x.order limit == .lt
  | .lt => x.order limit == .gt
  | .eq => x.order limit != .eq

/-- The numbers from `x` on, `step` apart, up to `limit`. -/
def countUp (limit step : Value) : Nat → Value → Results
  | 0, _ => .fail .exhausted
  | fuel + 1, x =>
    if goesOn limit step x then
      .cons (.ok x) fun _ =>
        match Operation.add.apply x step with
        | .ok y => countUp limit step fuel y
        | .error e => .fail e
    else .nil

def range : List Value → Results
  | [low, limit, step] => countUp limit step (Nat.pow 2 30) low
  | _ => .nil

/-- The matches of a pattern in a string, as `view` shows them. -/
def matching (view : Array Char → List Matching.Found → Value) : Native :=
  .onValues fun
    | [.string pattern, .string letters], .string s =>
      let text := s.toList.toArray
      match Matching.matches? text pattern letters with
      | some found => .one (view text found)
      | none => .fail (.text ("invalid pattern: " ++ pattern))
    | [.string _, .string _], v => .fail (.kind v "string")
    | [.string _, letters], _ => .fail (.kind letters "string")
    | pattern :: _, _ => .fail (.kind pattern "string")
    | [], _ => .nil

def matchGroups (_ : Array Char) (found : List Matching.Found) : Value :=
  .array (found.map fun m => m.groups)

def between (text : Array Char) (found : List Matching.Found) : Value :=
  .array ((Matching.alternate text 0 found).map fun p => p.1)

def alternating (text : Array Char) (found : List Matching.Found) : Value :=
  .array ((Matching.alternate text 0 found).flatMap fun p => p.1 :: p.2.toList)

/-! ### Filters that run filters -/

/-- As many of the second filter's results as the first one says. -/
def counted (f : Int → Results → Results) : Native :=
  .onFilters fun
    | [count, source], v => (count v).bind fun
      | .integer n => f n (source v)
      | w => .fail (.kind w "integer")
    | _, _ => .nil

/-- A function of the items of an array and their keys. -/
def byKey (f : List Sorting.Keyed → Results) : Native :=
  .onFilters fun
    | [key], .array items =>
      match Sorting.keyed key items with
      | .ok keyed => f keyed
      | .error e => .fail e
    | _, v => .fail (.kind v "array")

def itemsOf (keyed : List Sorting.Keyed) : Value := .array (keyed.map fun k => k.item)

def itemOf (k : Option Sorting.Keyed) : Results := Stream.ofList (k.map fun k => k.item).toList

/-- A filter of this environment that has no place here. -/
def unavailable : Native := .onValues fun _ _ => .fail (.text "not available")

/-! ### The table -/

/-- The native filters by name and number of arguments. -/
def table : List (String × Nat × Native) :=
  [ ("empty", 0, .onValues fun _ _ => .nil),
    ("error", 0, .onValues fun _ v => .fail (.raised v)),
    ("null", 0, constant .null),
    ("true", 0, constant (.bool true)),
    ("false", 0, constant (.bool false)),
    ("infinite", 0, constant (.ofFloat (1.0 / 0.0))),
    ("nan", 0, constant (.ofFloat (0.0 / 0.0))),
    ("not", 0, plain fun v => .ok (.bool !v.isTrue)),
    ("type", 0, plain fun v => .ok (.string v.kindName)),
    ("length", 0, plain length),
    ("utf8bytelength", 0, onString fun s => .integer s.utf8ByteSize),
    ("keys_unsorted", 0, plain keys),
    ("tojson", 0, plain fun v => .ok (.string v.text)),
    ("tostring", 0, plain fun v => .ok (.string v.plainText)),
    ("fromjson", 0, plain ofText),
    ("tonumber", 0, plain toNumber),
    ("explode", 0, onString codePoints),
    ("implode", 0, plain ofCodePoints),
    ("ascii_downcase", 0, onString fun s => .string (s.map Char.toLower)),
    ("ascii_upcase", 0, onString fun s => .string (s.map Char.toUpper)),
    ("trim", 0, onString fun s => .string (Strings.trimEnd (Strings.trimStart s))),
    ("ltrim", 0, onString fun s => .string (Strings.trimStart s)),
    ("rtrim", 0, onString fun s => .string (Strings.trimEnd s)),
    ("reverse", 0, plain reverse),
    ("has", 1, withArgument has),
    ("contains", 1, withArgument fun a v => .ok (.bool (contains v a))),
    ("startswith", 1, stringTest Strings.beginsWith),
    ("endswith", 1, stringTest Strings.endsWith),
    ("ltrimstr", 1, stringChange Strings.dropStart),
    ("rtrimstr", 1, stringChange Strings.dropEnd),
    ("split", 1, withArgument split),
    ("indices", 1, withArgument indices),
    ("range", 3, .onValues fun arguments _ => range arguments),
    ("matches", 2, matching matchGroups),
    ("split_", 2, matching between),
    ("split_matches", 2, matching alternating),
    ("first", 1, .onFilters fun
      | [source], v => (source v).take 1
      | _, _ => .nil),
    ("last", 1, .onFilters fun
      | [source], v =>
        match (source v).last? with
        | some r => .ofExcept r
        | none => .nil
      | _, _ => .nil),
    ("limit", 2, counted fun n source => source.take n.toNat),
    ("skip", 2, counted fun n source => source.drop n.toNat),
    ("sort_by", 1, byKey fun items => .one (itemsOf (Sorting.sort items))),
    ("group_by", 1, byKey fun items => .one (.array ((Sorting.groups items).map itemsOf))),
    ("min_by_or_empty", 1, byKey fun items => itemOf (Sorting.least? items)),
    ("max_by_or_empty", 1, byKey fun items => itemOf (Sorting.greatest? items)),
    ("@text", 0, plain fun v => .ok (.string v.plainText)),
    ("@json", 0, plain fun v => .ok (.string v.text)),
    ("@html", 0, plain fun v => .ok (.string (Strings.html v.plainText))),
    ("@uri", 0, plain fun v => .ok (.string (Strings.percent v.plainText))),
    ("@csv", 0, plain (row "," Strings.commaField)),
    ("@tsv", 0, plain (row "\t" Strings.tabField)),
    ("@sh", 0, plain commandLine),
    ("@base64", 0, plain fun v =>
      .ok (.string (String.ofList
        (Strings.encode64 (v.plainText.toUTF8.toList.map fun b => b.toNat))))),
    ("@base64d", 0, plain ofBase64),
    ("floor", 0, rounded Float.floor),
    ("ceil", 0, rounded Float.ceil),
    ("round", 0, rounded Float.round),
    ("isnan", 0, onFloat fun x => .bool x.isNaN),
    ("isinfinite", 0, onFloat fun x => .bool x.isInf),
    ("isfinite", 0, onFloat fun x => .bool x.isFinite),
    ("isnormal", 0, onFloat fun x => .bool (x.isFinite && 2.2250738585072014e-308 ≤ x.abs)),
    ("sqrt", 0, math Float.sqrt),
    ("fabs", 0, math Float.abs),
    ("cbrt", 0, math Float.cbrt),
    ("exp", 0, math Float.exp),
    ("exp2", 0, math Float.exp2),
    ("exp10", 0, math fun x => Float.pow 10.0 x),
    ("log", 0, math Float.log),
    ("log2", 0, math Float.log2),
    ("log10", 0, math Float.log10),
    ("sin", 0, math Float.sin),
    ("cos", 0, math Float.cos),
    ("tan", 0, math Float.tan),
    ("asin", 0, math Float.asin),
    ("acos", 0, math Float.acos),
    ("atan", 0, math Float.atan),
    ("sinh", 0, math Float.sinh),
    ("cosh", 0, math Float.cosh),
    ("tanh", 0, math Float.tanh),
    ("asinh", 0, math Float.asinh),
    ("acosh", 0, math Float.acosh),
    ("atanh", 0, math Float.atanh),
    ("trunc", 0, math wholePart),
    ("rint", 0, math roundEven),
    ("nearbyint", 0, math Float.round),
    ("pow10", 0, math fun x => Float.pow 10.0 x),
    ("significand", 0, math fun x => (significand x).1),
    ("logb", 0, math fun x =>
      if x == 0.0 then -1.0 / 0.0
      else if x.isInf then x.abs
      else Float.ofInt (significand x).2),
    ("frexp", 0, onFloat fun x =>
      let (m, e) := x.frExp
      .array [.ofFloat m, .integer (if x.isFinite then e else 0)]),
    ("modf", 0, onFloat fun x =>
      .array [.ofFloat (if x.isInf then 0.0 else x - wholePart x), .ofFloat (wholePart x)]),
    ("copysign", 2, math2 withSign),
    ("fdim", 2, math2 fun x y => if y < x then x - y else if x <= y then 0.0 else 0.0 / 0.0),
    ("ldexp", 2, scale),
    ("scalbln", 2, scale),
    ("scalb", 2, math2 fun x y => x * Float.exp2 y),
    ("pow", 2, math2 Float.pow),
    ("atan2", 2, math2 Float.atan2),
    ("fmin", 2, math2 fun x y => if y < x || x.isNaN then y else x),
    ("fmax", 2, math2 fun x y => if x < y || x.isNaN then y else x),
    ("inputs", 0, .onValues fun _ _ => .nil),
    ("debug", 0, .onValues fun _ v => .one v),
    ("stderr", 0, .onValues fun _ v => .one v),
    ("env", 0, constant (.object [])),
    ("now", 0, constant (.ofFloat 0.0)),
    ("halt", 1, unavailable),
    ("gmtime", 0, plain Time.split),
    ("localtime", 0, plain Time.split),
    ("mktime", 0, plain Time.join),
    ("strftime", 1, withArgument Time.format),
    ("strflocaltime", 1, withArgument Time.format),
    ("strptime", 1, withArgument Time.parse),
    ("fromdateiso8601", 0, plain Time.ofStandard),
    ("todateiso8601", 0, plain Time.toStandard) ]

/-- The native filter of this name and number of arguments. -/
def find? (name : String) (arity : Nat) : Option Native :=
  (table.find? fun n => n.1 == name && n.2.1 == arity).map (·.2.2)

end Native

end ApiTypes.Filter
