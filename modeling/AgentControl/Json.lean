import Mathlib.Algebra.Group.Nat.Basic
import Mathlib.Data.List.Infix
import Mathlib.Data.List.Nodup
import Mathlib.Data.Rat.Defs

/-!
# JSON Values with Python Semantics

The agent controller keeps every document of the shared store as JSON text and works on
the decoded Python values: dicts, lists, strings, integers, booleans and `None`. This
module fixes that value model.

* `JVal` is the decoded value. Objects are key lists in insertion order, because a
  Python `dict` is insertion-ordered and `json.dumps` writes it in that order.
  Numbers are integers: the controller never computes with fractional values, and the
  one place a number is tested (`canaryMode` truthiness) sees `0` as false either way.
* `Dict.get?` and `Dict.set` are `d.get(k)` and `d[k] = v`: an assignment overwrites an
  existing key in place and appends a new key at the end.
* `JVal.contains`, `JVal.getItem`, `JVal.getOr` and `JVal.setItem` are `k in x`, `x[k]`,
  `x.get(k, default)` and `x[k] = v` for an arbitrary decoded value `x`, with the
  exception Python raises when `x` is not a dict. Malformed registrations reach these
  operations, so their error paths are part of the model.
* `Bytes` is a stored byte string, at the grain the readers of the controller see it:
  a JSON text, a UTF-8 text that is not JSON (the raw `state` values), or bytes that are
  not UTF-8 at all.
* `JVal.Wf` says that no object has a repeated key, at any depth. `json.loads` keeps the
  last value of a repeated key, so every decoded value is well formed; request bodies
  are decoded the same way.
-/

namespace AgentControl

/-- A Python exception raised on one of the paths of the controller. -/
inductive PyErr where
  /-- `fastapi.HTTPException(status_code, detail)`. -/
  | httpException (statusCode : ℕ) (detail : String)
  /-- A `redis` call failed: the store or the channel is unavailable. -/
  | connectionError
  /-- `json.JSONDecodeError`: the bytes are not a JSON text. -/
  | jsonDecodeError
  /-- `UnicodeDecodeError`: the bytes are not UTF-8. -/
  | unicodeDecodeError
  /-- `ValueError`, raised by `int(...)` on a text that is not an integer. -/
  | valueError
  /-- `TypeError`, raised by `in`, `[]` or `[] =` on a value of the wrong type. -/
  | typeError
  /-- `KeyError(k)`, raised by `d[k]` on a dict without `k`. -/
  | keyError (key : String)
  /-- `AttributeError`, raised by `x.get(...)` on a value that is not a dict. -/
  | attributeError
  /-- `RuntimeError(msg)`. -/
  | runtimeError (msg : String)
  /-- `pydantic.ValidationError`, raised when a response model rejects a field. -/
  | validationError
  /-- `WebSocketDisconnect`, raised by `receive_text` once the observer has gone. -/
  | webSocketDisconnect
  /-- A send on a websocket whose peer is gone or stalled. -/
  | connectionClosed
  deriving DecidableEq, Repr

/-- A decoded JSON value. Objects keep their keys in insertion order. -/
inductive JVal where
  | null
  | bool (b : Bool)
  | num (n : ℤ)
  | str (s : String)
  | arr (xs : List JVal)
  | obj (d : List (String × JVal))
  deriving Repr, Inhabited

/-- The entries of a Python `dict`, in insertion order. -/
abbrev Dict := List (String × JVal)

mutual
/-- Decidable equality of decoded values, by structural recursion through lists. -/
def JVal.decEq : (a b : JVal) → Decidable (a = b)
  | .null, .null => isTrue rfl
  | .bool a, .bool b =>
      if h : a = b then isTrue (h ▸ rfl) else isFalse (by intro e; cases e; exact h rfl)
  | .num a, .num b =>
      if h : a = b then isTrue (h ▸ rfl) else isFalse (by intro e; cases e; exact h rfl)
  | .str a, .str b =>
      if h : a = b then isTrue (h ▸ rfl) else isFalse (by intro e; cases e; exact h rfl)
  | .arr a, .arr b =>
      match JVal.decEqList a b with
      | isTrue h => isTrue (h ▸ rfl)
      | isFalse h => isFalse (by intro e; cases e; exact h rfl)
  | .obj a, .obj b =>
      match JVal.decEqDict a b with
      | isTrue h => isTrue (h ▸ rfl)
      | isFalse h => isFalse (by intro e; cases e; exact h rfl)
  | .null, .bool _ | .null, .num _ | .null, .str _ | .null, .arr _ | .null, .obj _
  | .bool _, .null | .bool _, .num _ | .bool _, .str _ | .bool _, .arr _ | .bool _, .obj _
  | .num _, .null | .num _, .bool _ | .num _, .str _ | .num _, .arr _ | .num _, .obj _
  | .str _, .null | .str _, .bool _ | .str _, .num _ | .str _, .arr _ | .str _, .obj _
  | .arr _, .null | .arr _, .bool _ | .arr _, .num _ | .arr _, .str _ | .arr _, .obj _
  | .obj _, .null | .obj _, .bool _ | .obj _, .num _ | .obj _, .str _ | .obj _, .arr _ =>
      isFalse (by intro e; cases e)

/-- Decidable equality of lists of decoded values. -/
def JVal.decEqList : (a b : List JVal) → Decidable (a = b)
  | [], [] => isTrue rfl
  | [], _ :: _ | _ :: _, [] => isFalse (by intro e; cases e)
  | x :: xs, y :: ys =>
      match JVal.decEq x y, JVal.decEqList xs ys with
      | isTrue h₁, isTrue h₂ => isTrue (h₁ ▸ h₂ ▸ rfl)
      | isFalse h, _ => isFalse (by intro e; cases e; exact h rfl)
      | _, isFalse h => isFalse (by intro e; cases e; exact h rfl)

/-- Decidable equality of dict entries. -/
def JVal.decEqDict : (a b : Dict) → Decidable (a = b)
  | [], [] => isTrue rfl
  | [], _ :: _ | _ :: _, [] => isFalse (by intro e; cases e)
  | (k, x) :: xs, (k', y) :: ys =>
      if hk : k = k' then
        match JVal.decEq x y, JVal.decEqDict xs ys with
        | isTrue h₁, isTrue h₂ => isTrue (hk ▸ h₁ ▸ h₂ ▸ rfl)
        | isFalse h, _ => isFalse (by intro e; cases e; exact h rfl)
        | _, isFalse h => isFalse (by intro e; cases e; exact h rfl)
      else isFalse (by intro e; cases e; exact hk rfl)
end

instance : DecidableEq JVal := JVal.decEq

/-! ### The `Except` monad -/

@[simp] theorem except_ok_bind {ε α β : Type} (a : α) (f : α → Except ε β) :
    (Except.ok a >>= f) = f a := rfl

@[simp] theorem except_error_bind {ε α β : Type} (e : ε) (f : α → Except ε β) :
    (Except.error e >>= f) = .error e := rfl

/-- A sequence of Python steps returns exactly when each step does. -/
theorem except_bind_eq_ok {ε α β : Type} {x : Except ε α} {f : α → Except ε β} {b : β} :
    (x >>= f) = .ok b ↔ ∃ a, x = .ok a ∧ f a = .ok b := by
  cases x <;> simp

/-! ### Dicts -/

namespace Dict

/-- `d.get(k)`: the value stored under `k`, if any. -/
def get? : Dict → String → Option JVal
  | [], _ => none
  | (k', v) :: d, k => if k' = k then some v else get? d k

/-- `d[k] = v`: an existing key keeps its place, a new key is appended. -/
def set : Dict → String → JVal → Dict
  | [], k, v => [(k, v)]
  | (k', v') :: d, k, v => if k' = k then (k, v) :: d else (k', v') :: set d k v

/-- The keys of a dict, in insertion order. -/
def keys (d : Dict) : List String := d.map Prod.fst

@[simp] theorem get?_nil (k : String) : get? [] k = none := rfl

@[simp] theorem set_nil (k : String) (v : JVal) : set [] k v = [(k, v)] := rfl

theorem get?_cons (k' k : String) (v : JVal) (d : Dict) :
    get? ((k', v) :: d) k = if k' = k then some v else get? d k := rfl

theorem set_cons (k' k : String) (v' v : JVal) (d : Dict) :
    set ((k', v') :: d) k v = if k' = k then (k, v) :: d else (k', v') :: set d k v := rfl

@[simp] theorem get?_set_self (d : Dict) (k : String) (v : JVal) :
    get? (set d k v) k = some v := by
  induction d with
  | nil => simp [get?]
  | cons e d ih =>
      obtain ⟨k', v'⟩ := e
      by_cases h : k' = k
      · simp [set_cons, get?_cons, h]
      · simp [set_cons, get?_cons, h, ih]

theorem get?_set_of_ne (d : Dict) {k k' : String} (v : JVal) (h : k ≠ k') :
    get? (set d k v) k' = get? d k' := by
  induction d with
  | nil => simp [get?, h]
  | cons e d ih =>
      obtain ⟨j, w⟩ := e
      by_cases hj : j = k
      · subst hj; simp [set_cons, get?_cons, h]
      · simp only [set_cons, hj, if_false, get?_cons, ih]

/-- Reading a key after an assignment: the assigned key answers the new value, every
other key its old one. -/
theorem get?_set (d : Dict) (k k' : String) (v : JVal) :
    get? (set d k v) k' = if k = k' then some v else get? d k' := by
  by_cases h : k = k'
  · subst h; simp
  · simp [h, get?_set_of_ne d v h]

@[simp] theorem keys_nil : keys [] = [] := rfl

@[simp] theorem keys_cons (k : String) (v : JVal) (d : Dict) :
    keys ((k, v) :: d) = k :: keys d := rfl

theorem get?_eq_none_iff {d : Dict} {k : String} : get? d k = none ↔ k ∉ keys d := by
  induction d with
  | nil => simp
  | cons e d ih =>
      obtain ⟨k', v⟩ := e
      by_cases h : k' = k
      · simp [get?_cons, h]
      · simp [get?_cons, h, ih, Ne.symm h]

theorem mem_keys_iff {d : Dict} {k : String} : k ∈ keys d ↔ (get? d k).isSome := by
  rw [← not_iff_not, ← get?_eq_none_iff]; simp

/-- An assignment adds its key to the key set and removes none. -/
theorem mem_keys_set {d : Dict} {k k' : String} {v : JVal} :
    k' ∈ keys (set d k v) ↔ k' = k ∨ k' ∈ keys d := by
  simp only [mem_keys_iff, get?_set]
  by_cases h : k = k'
  · subst h; simp
  · simp [h, Ne.symm h]

theorem mem_of_get?_eq_some {d : Dict} {k : String} {v : JVal} (h : get? d k = some v) :
    (k, v) ∈ d := by
  induction d with
  | nil => simp at h
  | cons e d ih =>
      obtain ⟨k', v'⟩ := e
      by_cases hk : k' = k
      · simp_all [get?_cons]
      · simp only [get?_cons, hk, if_false] at h
        exact List.mem_cons_of_mem _ (ih h)

/-- In a dict without repeated keys, every entry is what a lookup of its key finds. -/
theorem get?_eq_some_of_mem {d : Dict} (hd : (keys d).Nodup) {k : String} {v : JVal}
    (h : (k, v) ∈ d) : get? d k = some v := by
  induction d with
  | nil => simp at h
  | cons e d ih =>
      obtain ⟨k', v'⟩ := e
      simp only [keys_cons, List.nodup_cons] at hd
      rcases List.mem_cons.mp h with h | h
      · simp_all [get?_cons]
      · have hk : k' ≠ k := fun hk => hd.1 (hk ▸ List.mem_map_of_mem Prod.fst h)
        simp [get?_cons, hk, ih hd.2 h]

/-- Assigning the value a key already holds changes nothing. -/
theorem set_of_get?_eq {d : Dict} {k : String} {v : JVal} (h : get? d k = some v) :
    set d k v = d := by
  induction d with
  | nil => simp at h
  | cons e d ih =>
      obtain ⟨k', v'⟩ := e
      by_cases hk : k' = k
      · subst hk; simp_all [get?_cons, set_cons]
      · simp_all [get?_cons, set_cons]

/-- A second assignment to a key overrides the first. -/
@[simp] theorem set_set (d : Dict) (k : String) (v v' : JVal) :
    set (set d k v) k v' = set d k v' := by
  induction d with
  | nil => simp [set]
  | cons e d ih =>
      obtain ⟨k', w⟩ := e
      by_cases hk : k' = k
      · simp [set_cons, hk]
      · simp [set_cons, hk, ih]

end Dict

/-! ### Python operations on decoded values -/

namespace JVal

/-- Python truthiness: `None`, `False`, `0`, `""`, `[]` and `{}` are false. -/
def truthy : JVal → Bool
  | .null => false
  | .bool b => b
  | .num n => n != 0
  | .str s => s != ""
  | .arr xs => !xs.isEmpty
  | .obj d => !d.isEmpty

/-- `isinstance(x, dict)`. -/
def isDict : JVal → Bool
  | .obj _ => true
  | _ => false

/-- `k in x`: key membership for a dict, element equality for a list, substring for a
string; any other value is not iterable. -/
def contains (x : JVal) (k : String) : Except PyErr Bool :=
  match x with
  | .obj d => .ok (k ∈ Dict.keys d)
  | .arr xs => .ok (xs.contains (.str k))
  | .str s => .ok (decide (k.toList <:+: s.toList))
  | _ => .error .typeError

/-- `x[k]` with a string `k`: a dict lookup, or a `KeyError`; other values reject a
string subscript. -/
def getItem (x : JVal) (k : String) : Except PyErr JVal :=
  match x with
  | .obj d => match Dict.get? d k with
    | some v => .ok v
    | none => .error (.keyError k)
  | _ => .error .typeError

/-- `x.get(k, default)`: only dicts have a `get` method. -/
def getOr (x : JVal) (k : String) (default : JVal) : Except PyErr JVal :=
  match x with
  | .obj d => .ok ((Dict.get? d k).getD default)
  | _ => .error .attributeError

/-- `x[k] = v`: only dicts accept a string subscript assignment. -/
def setItem (x : JVal) (k : String) (v : JVal) : Except PyErr JVal :=
  match x with
  | .obj d => .ok (.obj (Dict.set d k v))
  | _ => .error .typeError

@[simp] theorem contains_obj (d : Dict) (k : String) :
    contains (.obj d) k = .ok (k ∈ Dict.keys d) := rfl

@[simp] theorem getOr_obj (d : Dict) (k : String) (default : JVal) :
    getOr (.obj d) k default = .ok ((Dict.get? d k).getD default) := rfl

@[simp] theorem setItem_obj (d : Dict) (k : String) (v : JVal) :
    setItem (.obj d) k v = .ok (.obj (Dict.set d k v)) := rfl

theorem getItem_obj (d : Dict) (k : String) :
    getItem (.obj d) k = match Dict.get? d k with
      | some v => .ok v
      | none => .error (.keyError k) := rfl

/-- A subscript succeeds only on a dict that holds the key. -/
theorem getItem_eq_ok {x v : JVal} {k : String} :
    x.getItem k = .ok v ↔ ∃ d, x = .obj d ∧ Dict.get? d k = some v := by
  cases x <;> simp only [getItem, reduceCtorEq, obj.injEq, exists_eq_left', false_and,
    exists_false, iff_false]
  split <;> simp_all

/-- `json.dumps` output, with the default separators. String escapes other than the
quote and the backslash are not modelled; only the first character of the text is
ever compared by the controller. -/
def render : JVal → String
  | .null => "null"
  | .bool true => "true"
  | .bool false => "false"
  | .num n => toString n
  | .str s => "\"" ++ escape s ++ "\""
  | .arr xs => "[" ++ ", ".intercalate (renderList xs) ++ "]"
  | .obj d => "\x7b" ++ ", ".intercalate (renderDict d) ++ "\x7d"
where
  escape (s : String) : String :=
    String.join (s.toList.map fun c =>
      if c = '"' then "\\\"" else if c = '\\' then "\\\\" else c.toString)
  renderList : List JVal → List String
    | [] => []
    | x :: xs => render x :: renderList xs
  renderDict : Dict → List String
    | [] => []
    | (k, v) :: d => ("\"" ++ escape k ++ "\": " ++ render v) :: renderDict d

/-- Well-formedness of a decoded value: no object repeats a key, at any depth. -/
inductive Wf : JVal → Prop
  | null : Wf .null
  | bool (b : Bool) : Wf (.bool b)
  | num (n : ℤ) : Wf (.num n)
  | str (s : String) : Wf (.str s)
  | arr {xs : List JVal} : (∀ x ∈ xs, Wf x) → Wf (.arr xs)
  | obj {d : Dict} : (Dict.keys d).Nodup → (∀ e ∈ d, Wf e.2) → Wf (.obj d)

theorem Wf.keys_nodup {d : Dict} (h : (JVal.obj d).Wf) : (Dict.keys d).Nodup := by
  cases h; assumption

theorem Wf.of_mem {d : Dict} (h : (JVal.obj d).Wf) {e : String × JVal} (he : e ∈ d) : e.2.Wf := by
  cases h with
  | obj _ hall => exact hall e he

theorem Wf.of_get? {d : Dict} (h : (JVal.obj d).Wf) {k : String} {v : JVal}
    (hv : Dict.get? d k = some v) : v.Wf :=
  h.of_mem (Dict.mem_of_get?_eq_some hv)

end JVal

/-! ### Python's number texts -/

/-- `c.isspace()`: the characters `str.split()` splits on and `float(...)` strips. -/
def pyIsSpace (c : Char) : Bool :=
  let n := c.toNat
  (9 ≤ n && n ≤ 13) || (28 ≤ n && n ≤ 32) || n == 133 || n == 160 || n == 5760 ||
    (8192 ≤ n && n ≤ 8202) || n == 8232 || n == 8233 || n == 8239 || n == 8287 || n == 12288

/-- `bytes.isspace()` on one byte: what `int(...)` strips from bytes. -/
def asciiSpace (c : Char) : Bool := c == ' ' || ('\t' ≤ c && c ≤ '\r')

/-- `s.strip()`, for the spaces `p`. -/
def stripBy (p : Char → Bool) (cs : List Char) : List Char :=
  ((cs.dropWhile p).reverse.dropWhile p).reverse

/-- The value of a list of ASCII digits. -/
def digitsValue (ds : List Char) : ℕ := ds.foldl (fun n c => 10 * n + (c.toNat - '0'.toNat)) 0

/-- `digitpart`: ASCII digits with single underscores between digits; its digits. -/
def digitPart (cs : List Char) : Option (List Char) :=
  if cs.head?.any Char.isDigit && cs.getLast?.any Char.isDigit &&
      cs.all (fun c => c.isDigit || c == '_') &&
      !(cs.zip cs.tail).any (fun p => p.1 == '_' && p.2 == '_') then
    some (cs.filter Char.isDigit)
  else none

/-- `[sign] digitpart`: the text of a base-10 `int`, or the exponent of a `float`. -/
def signedDigits : List Char → Option ℤ
  | '-' :: ds => (digitPart ds).map fun d => -(digitsValue d : ℤ)
  | '+' :: ds => (digitPart ds).map fun d => (digitsValue d : ℤ)
  | ds => (digitPart ds).map fun d => (digitsValue d : ℤ)

/-- `int(data)` on the bytes of a text: ASCII whitespace stripped from both ends, then an
optional sign and the digits. A lone sign, an inner space or a doubled underscore is a
`ValueError`. -/
def pyInt (s : String) : Option ℤ := signedDigits (stripBy asciiSpace s.data)

example : pyInt " -1_000\n" = some (-1000) ∧ pyInt "-" = none ∧ pyInt "1__0" = none ∧
    pyInt "+7" = some 7 := by decide

/-- A Python `float` as a response model holds it: a finite value, read exactly (the rounding
to the nearest double is not modelled), an infinity, or a NaN. -/
inductive PyFloat where
  | finite (q : ℚ)
  | inf (negative : Bool)
  | nan
  deriving DecidableEq, Repr

instance {n : ℕ} : OfNat PyFloat n := ⟨.finite n⟩

/-- `number`: `[digitpart] "." digitpart` or `digitpart ["."]`, as its digits and how many
of them follow the point. -/
def decimalNumber (cs : List Char) : Option (List Char × ℕ) :=
  match cs.splitOnP (· == '.') with
  | [i] => (digitPart i).map fun d => (d, 0)
  | [[], f] => (digitPart f).map fun d => (d, d.length)
  | [i, []] => (digitPart i).map fun d => (d, 0)
  | [i, f] => do
    let di ← digitPart i
    let df ← digitPart f
    pure (di ++ df, df.length)
  | _ => none

/-- `floatnumber`: a `number` with an optional exponent, as a numerator and a denominator
of its exact value. -/
def floatNumber (cs : List Char) : Option (ℕ × ℕ) :=
  match cs.splitOnP (fun c => c == 'e' || c == 'E') with
  | [m] => (decimalNumber m).map fun (d, k) => (digitsValue d, 10 ^ k)
  | [m, e] => do
    let (d, k) ← decimalNumber m
    let x ← signedDigits e
    pure (if k ≤ x then (digitsValue d * 10 ^ (x - k).toNat, 1)
      else (digitsValue d, 10 ^ (k - x).toNat))
  | _ => none

/-- `float(s)` on a text: whitespace stripped from both ends, an optional sign, then a
`floatnumber`, or `inf`, `infinity` or `nan` in any case. -/
def pyFloat (s : String) : Option PyFloat :=
  let (negative, body) := match stripBy pyIsSpace s.data with
    | '-' :: b => (true, b)
    | '+' :: b => (false, b)
    | b => (false, b)
  let word := String.mk (body.map Char.toLower)
  if word = "inf" ∨ word = "infinity" then some (.inf negative)
  else if word = "nan" then some .nan
  else (floatNumber body).map fun (n, d) => .finite (mkRat (if negative then -n else n) d)

example : pyFloat " 1.5 " = some (.finite (mkRat 3 2)) ∧
    pyFloat "-2e1" = some (.finite (mkRat (-20) 1)) ∧
    pyFloat "1_0.0_5" = some (.finite (mkRat 201 20)) ∧ pyFloat "-Infinity" = some (.inf true) ∧
    pyFloat "." = none ∧ pyFloat "1e" = none := by decide

/-! ### Stored bytes -/

/-- A byte string held by the store, at the grain its readers distinguish: `json.loads`,
`bytes.decode("utf-8")` and `int(...)`. -/
inductive Bytes where
  /-- A JSON text, which `json.loads` decodes to `v`. -/
  | json (v : JVal)
  /-- A UTF-8 text that is not a JSON text, such as the raw state `paused`. -/
  | text (s : String)
  /-- Bytes that are not UTF-8. -/
  | binary
  deriving DecidableEq, Repr

namespace Bytes

/-- `json.dumps(v)`, encoded. -/
def dumps (v : JVal) : Bytes := .json v

/-- `if data:` on the value `redis` returns: only the empty byte string is false. -/
def truthy : Bytes → Bool
  | .text s => s != ""
  | _ => true

/-- `json.loads(data)`. -/
def loads : Bytes → Except PyErr JVal
  | .json v => .ok v
  | _ => .error .jsonDecodeError

/-- `data.decode("utf-8")`. -/
def decode : Bytes → Except PyErr String
  | .json v => .ok v.render
  | .text s => .ok s
  | .binary => .error .unicodeDecodeError

/-- `int(data)`: a JSON integer text, or a text that `int` reads (`pyInt`). -/
def toInt : Bytes → Except PyErr ℤ
  | .json (.num n) => .ok n
  | .text s => match pyInt s with
    | some n => .ok n
    | none => .error .valueError
  | _ => .error .valueError

@[simp] theorem loads_dumps (v : JVal) : loads (dumps v) = .ok v := rfl

@[simp] theorem truthy_dumps (v : JVal) : truthy (dumps v) = true := rfl

/-- The bytes that decode to `v` are the encoding of `v`. -/
theorem loads_eq_ok {b : Bytes} {v : JVal} : b.loads = .ok v ↔ b = dumps v := by
  cases b <;> simp [loads, dumps]

end Bytes

end AgentControl
