import AgentControl.Json

/-!
# The Deep Merge of `inject_config`

`inject_config` merges the request's patch into the stored `config` with a nested helper:

```
def deep_update(d, u):
    for k, v in u.items():
        if isinstance(v, dict) and k in d and isinstance(d[k], dict):
            deep_update(d[k], v)
        else:
            d[k] = v
```

`deepUpdate` is that loop on an arbitrary decoded value `d`, through the Python
operations of `AgentControl.Json`, so that a `config` which is not a dict raises where
Python raises. The helper mutates `d[k]` in place; since neither the stored document nor
the patch shares a sub-object, writing the merged child back with `d[k] = ...` is the
same value.

`merge` is the same loop on dicts, as a pure function: the step for `(k, v)` assigns
`mergeValue (d.get k) v` to `k`. Everything about the merge is proved of `merge`, and
`deepUpdate_obj` transfers it to the code.

## Main results

* `deepUpdate_obj`: on a dict, `deep_update` never raises and computes `merge`.
* `deepUpdate_of_not_isDict`: on any other value, a non-empty patch raises `TypeError`.
* `mem_keys_merge`, `get?_merge`: the merge is defined key by key; its keys are those of
  both sides, a patched key holds `mergeValue` of the two sides, any other key keeps its
  value.
* `getPath_merge_of_not_reaches`, `getPath_merge_of_not_isDict`: every key path the patch
  does not reach keeps its value, and every non-dict value of the patch lands at its own
  path.
* `merge_self`, `merge_merge`: a well-formed patch merged into itself changes nothing, and
  merging the same patch twice is merging it once.
-/

namespace AgentControl

mutual
/-- `deep_update(d, u)`: merge the patch `u` into `d`, entry by entry. -/
def deepUpdate (d : JVal) : Dict → Except PyErr JVal
  | [] => .ok d
  | (k, v) :: u => do
      let d ← updateItem d k v
      deepUpdate d u

/-- One pass of the loop body of `deep_update`, for the patch entry `(k, v)`: recurse
when `v`, `k in d` and `d[k]` say so, and assign `d[k] = v` otherwise. -/
def updateItem (d : JVal) (k : String) : JVal → Except PyErr JVal
  | .obj vu => do
      if ← d.contains k then
        let x ← d.getItem k
        if x.isDict then
          let x ← deepUpdate x vu
          d.setItem k x
        else d.setItem k (.obj vu)
      else d.setItem k (.obj vu)
  | v => d.setItem k v
end

mutual
/-- The deep merge of the patch `u` into the dict `d`, as a pure function. -/
def merge (d : Dict) : Dict → Dict
  | [] => d
  | (k, v) :: u => merge (Dict.set d k (mergeValue (Dict.get? d k) v)) u

/-- What the merge stores under a patched key: the merge of the two sides when both are
dicts, the patch value otherwise. -/
def mergeValue : Option JVal → JVal → JVal
  | some (.obj dk), .obj vu => .obj (merge dk vu)
  | _, v => v
end

@[simp] theorem merge_nil (d : Dict) : merge d [] = d := by simp [merge]

theorem merge_cons (d : Dict) (k : String) (v : JVal) (u : Dict) :
    merge d ((k, v) :: u) = merge (Dict.set d k (mergeValue (Dict.get? d k) v)) u := by
  simp [merge]

@[simp] theorem mergeValue_obj_obj (dk vu : Dict) :
    mergeValue (some (.obj dk)) (.obj vu) = .obj (merge dk vu) := by simp [mergeValue]

theorem mergeValue_of_not_isDict {v : JVal} (hv : v.isDict = false) (o : Option JVal) :
    mergeValue o v = v := by
  unfold mergeValue; split <;> simp_all [JVal.isDict]

/-! ### The code computes the merge -/

/-- One loop pass on a dict, for a dict patch value whose own merge is already known to
be computed by `deep_update`. -/
theorem updateItem_obj_obj {vu : Dict}
    (ih : ∀ dk, deepUpdate (.obj dk) vu = .ok (.obj (merge dk vu))) (d : Dict) (k : String) :
    updateItem (.obj d) k (.obj vu) =
      .ok (.obj (Dict.set d k (mergeValue (Dict.get? d k) (.obj vu)))) := by
  cases h : Dict.get? d k with
  | none =>
      have hk : k ∉ Dict.keys d := Dict.get?_eq_none_iff.mp h
      simp [updateItem, hk, mergeValue]
  | some x =>
      have hk : k ∈ Dict.keys d := Dict.mem_keys_iff.mpr (by simp [h])
      cases x with
      | obj dk => simp [updateItem, hk, JVal.getItem_obj, h, JVal.isDict, ih dk]
      | _ => simp [updateItem, hk, JVal.getItem_obj, h, JVal.isDict, mergeValue]

/-- One loop pass on a dict, for a patch value that is not a dict: a plain assignment. -/
theorem updateItem_obj_of_not_isDict {v : JVal} (hv : v.isDict = false) (d : Dict)
    (k : String) :
    updateItem (.obj d) k v = .ok (.obj (Dict.set d k (mergeValue (Dict.get? d k) v))) := by
  rw [mergeValue_of_not_isDict hv]
  cases v <;> simp_all [updateItem, JVal.isDict]

mutual
/-- **On a dict, `deep_update` never raises**, and its result is the pure merge. -/
theorem deepUpdate_obj (d : Dict) :
    (u : Dict) → deepUpdate (.obj d) u = .ok (.obj (merge d u))
  | [] => by simp [deepUpdate]
  | (k, v) :: u => by
      rw [deepUpdate, updateItem_obj d k v, merge_cons]
      exact deepUpdate_obj _ u

/-- One loop pass on a dict assigns `mergeValue (d.get k) v` to `k`. -/
theorem updateItem_obj (d : Dict) (k : String) :
    (v : JVal) → updateItem (.obj d) k v =
      .ok (.obj (Dict.set d k (mergeValue (Dict.get? d k) v)))
  | .obj vu => updateItem_obj_obj (fun dk => deepUpdate_obj dk vu) d k
  | .null => updateItem_obj_of_not_isDict (v := .null) rfl d k
  | .bool b => updateItem_obj_of_not_isDict (v := .bool b) rfl d k
  | .num n => updateItem_obj_of_not_isDict (v := .num n) rfl d k
  | .str s => updateItem_obj_of_not_isDict (v := .str s) rfl d k
  | .arr xs => updateItem_obj_of_not_isDict (v := .arr xs) rfl d k
end

/-- **On a value that is not a dict**, a non-empty patch makes `deep_update` raise
`TypeError` at its first entry: `k in d` rejects a number, a boolean or `None`, and a
list or a string rejects `d[k]` and `d[k] = v`. -/
theorem deepUpdate_of_not_isDict {d : JVal} (hd : d.isDict = false) {k : String} {v : JVal}
    (u : Dict) : deepUpdate d ((k, v) :: u) = .error .typeError := by
  have hset : ∀ w, d.setItem k w = .error .typeError := by
    intro w; cases d <;> simp_all [JVal.setItem, JVal.isDict]
  have hget : d.getItem k = .error .typeError := by
    cases d <;> simp_all [JVal.getItem, JVal.isDict]
  cases v with
  | obj vu =>
      cases d <;> simp_all [deepUpdate, updateItem, JVal.contains, JVal.isDict]
  | _ => simp [deepUpdate, updateItem, hset]

/-! ### The merge, key by key -/

/-- The merged dict holds the keys of both sides. -/
theorem mem_keys_merge (d u : Dict) (k : String) :
    k ∈ Dict.keys (merge d u) ↔ k ∈ Dict.keys d ∨ k ∈ Dict.keys u := by
  induction u generalizing d with
  | nil => simp
  | cons e u ih =>
      obtain ⟨k', v⟩ := e
      rw [merge_cons, ih, Dict.mem_keys_set]
      simp only [Dict.keys_cons, List.mem_cons]
      tauto

/-- A key the patch does not hold keeps its value. -/
theorem get?_merge_of_not_mem {u : Dict} {k : String} (hk : k ∉ Dict.keys u) (d : Dict) :
    Dict.get? (merge d u) k = Dict.get? d k := by
  induction u generalizing d with
  | nil => simp
  | cons e u ih =>
      obtain ⟨k', v⟩ := e
      simp only [Dict.keys_cons, List.mem_cons, not_or] at hk
      rw [merge_cons, ih hk.2, Dict.get?_set_of_ne _ _ (Ne.symm hk.1)]

/-- **The merge is defined key by key**: a key of the patch holds `mergeValue` of the
stored and the patch value, any other key keeps its stored value. -/
theorem get?_merge {u : Dict} (hu : (Dict.keys u).Nodup) (d : Dict) (k : String) :
    Dict.get? (merge d u) k = match Dict.get? u k with
      | some v => some (mergeValue (Dict.get? d k) v)
      | none => Dict.get? d k := by
  induction u generalizing d with
  | nil => simp
  | cons e u ih =>
      obtain ⟨k', v⟩ := e
      simp only [Dict.keys_cons, List.nodup_cons] at hu
      rw [merge_cons, Dict.get?_cons]
      by_cases hk : k' = k
      · subst hk
        rw [get?_merge_of_not_mem hu.1]
        simp
      · rw [ih hu.2, Dict.get?_set_of_ne _ _ hk]
        simp [hk]

/-! ### Key paths -/

/-- The value at the end of a key path, if every step meets a dict holding the key. -/
def getPath : JVal → List String → Option JVal
  | v, [] => some v
  | .obj d, k :: p => match Dict.get? d k with
    | some v => getPath v p
    | none => none
  | _, _ :: _ => none

/-- The patch `u` reaches the key path `p`: a non-dict patch value sits at a proper
prefix of `p` (it replaces the whole subtree), or `p` is itself a path of the patch.
The empty path, the document itself, counts as reached. -/
def Reaches : Dict → List String → Prop
  | _, [] => True
  | u, k :: p => match Dict.get? u k with
    | none => False
    | some (.obj vu) => p = [] ∨ Reaches vu p
    | some _ => True

@[simp] theorem getPath_nil (v : JVal) : getPath v [] = some v := by simp [getPath]

theorem getPath_obj_cons (d : Dict) (k : String) (p : List String) :
    getPath (.obj d) (k :: p) = (Dict.get? d k).bind (getPath · p) := by
  simp only [getPath]; cases Dict.get? d k <;> rfl

/-- A path the patch does not reach leads nowhere inside the patch. -/
theorem getPath_eq_none_of_not_reaches {u : Dict} {p : List String} (hp0 : p ≠ [])
    (hp : ¬ Reaches u p) : getPath (.obj u) p = none := by
  induction p generalizing u with
  | nil => exact absurd rfl hp0
  | cons k p ih =>
      rw [getPath_obj_cons]
      cases hv : Dict.get? u k with
      | none => rfl
      | some v =>
          simp only [Reaches, hv] at hp
          cases v with
          | obj vu =>
              simp only [not_or] at hp
              exact ih hp.1 hp.2
          | _ => simp at hp

/-- **Every key path the patch does not reach keeps its value.** -/
theorem getPath_merge_of_not_reaches {u : Dict} (hu : (JVal.obj u).Wf) {p : List String}
    (hp : ¬ Reaches u p) (d : Dict) : getPath (.obj (merge d u)) p = getPath (.obj d) p := by
  induction p generalizing d u with
  | nil => simp [Reaches] at hp
  | cons k p ih =>
      simp only [getPath_obj_cons, get?_merge hu.keys_nodup]
      cases hv : Dict.get? u k with
      | none => rfl
      | some v =>
          simp only [Reaches, hv] at hp
          cases v with
          | obj vu =>
              simp only [not_or] at hp
              obtain ⟨hp0, hp⟩ := hp
              have hnone := getPath_eq_none_of_not_reaches hp0 hp
              cases hd : Dict.get? d k with
              | none => simpa using hnone
              | some x =>
                  cases x with
                  | obj dk => simpa using ih (hu.of_get? hv) hp dk
                  | _ =>
                      obtain ⟨k', p', rfl⟩ := List.exists_cons_of_ne_nil hp0
                      simpa [mergeValue_of_not_isDict, JVal.isDict, getPath] using hnone
          | _ => simp at hp

/-- **Every non-dict value of the patch lands at its own path.** -/
theorem getPath_merge_of_not_isDict {u : Dict} (hu : (JVal.obj u).Wf) {p : List String}
    {v : JVal} (hp : getPath (.obj u) p = some v) (hv : v.isDict = false) (d : Dict) :
    getPath (.obj (merge d u)) p = some v := by
  induction p generalizing d u with
  | nil =>
      simp only [getPath_nil, Option.some.injEq] at hp
      subst hp; simp [JVal.isDict] at hv
  | cons k p ih =>
      rw [getPath_obj_cons] at hp ⊢
      obtain ⟨w, hw, hwp⟩ := Option.bind_eq_some.mp hp
      rw [get?_merge hu.keys_nodup, hw]
      cases w with
      | obj wu =>
          cases hd : Dict.get? d k with
          | some x =>
              cases x with
              | obj dk => simpa using ih (hu.of_get? hw) hwp dk
              | _ => simpa [mergeValue] using hwp
          | none => simpa [mergeValue] using hwp
      | _ => simpa [mergeValue_of_not_isDict, JVal.isDict] using hwp

/-! ### Idempotence -/

/-- A merge whose every patch entry is already absorbed by `d` leaves `d` unchanged. -/
theorem merge_eq_self {d u : Dict}
    (h : ∀ e ∈ u, Dict.get? d e.1 = some (mergeValue (Dict.get? d e.1) e.2)) :
    merge d u = d := by
  induction u with
  | nil => simp
  | cons e u ih =>
      obtain ⟨k, v⟩ := e
      rw [merge_cons, Dict.set_of_get?_eq (h (k, v) (List.mem_cons_self _ _))]
      exact ih fun e he => h e (List.mem_cons_of_mem _ he)

/-- **A well-formed dict merged into itself is unchanged**: `merge u u = u`. -/
theorem merge_self {u : Dict} (hu : (JVal.obj u).Wf) : merge u u = u := by
  suffices ∀ {v : JVal}, v.Wf → ∀ {u : Dict}, v = .obj u → merge u u = u from this hu rfl
  intro v hv
  induction hv with
  | obj hnd _ ih =>
      rintro u ⟨⟩
      refine merge_eq_self fun e he => ?_
      rw [Dict.get?_eq_some_of_mem hnd he]
      obtain ⟨k, w⟩ := e
      cases w with
      | obj wu => simp [ih _ he rfl]
      | _ => simp [mergeValue_of_not_isDict, JVal.isDict]
  | _ => rintro u ⟨⟩

/-- **Merging the same patch twice is merging it once**: for a well-formed patch `u`,
`merge (merge d u) u = merge d u`. -/
theorem merge_merge {u : Dict} (hu : (JVal.obj u).Wf) (d : Dict) :
    merge (merge d u) u = merge d u := by
  suffices ∀ {v : JVal}, v.Wf → ∀ {u : Dict}, v = .obj u → ∀ d, merge (merge d u) u = merge d u
    from this hu rfl d
  intro v hv
  induction hv with
  | @obj u hnd hall ih =>
      rintro u ⟨⟩ d
      refine merge_eq_self fun e he => ?_
      have hue : Dict.get? u e.1 = some e.2 := Dict.get?_eq_some_of_mem hnd he
      simp only [get?_merge hnd, hue]
      obtain ⟨k, w⟩ := e
      cases w with
      | obj wu =>
          cases hd : Dict.get? d k with
          | some x =>
              cases x with
              | obj dk => simp [ih _ he rfl dk]
              | _ => simp [mergeValue, merge_self (hall _ he)]
          | none => simp [mergeValue, merge_self (hall _ he)]
      | _ => simp [mergeValue_of_not_isDict, JVal.isDict]
  | _ => rintro u ⟨⟩

end AgentControl
