import Mathlib.Data.List.Nodup
import Synora.Lib.Json

/- Structs under Go's `encoding/json`. A struct is the list of its fields, those of
   embedded structs among them, each with the index path that leads to it. Of the
   fields that share a JSON name at most one is visible: the one that is least deep,
   and of those the one with a tag. Only visible fields are written and read. So
   what the visible fields do not set stays as it was, whatever is read
   (`decode_keeps`), and they are read back from what is written (`decode_encode`). -/
namespace StructFields

/-- A field of `σ` with the JSON value of what it holds. -/
structure JsonField (σ : Type) where
  name : String
  /-- The indices of the embedded structs on the way, and its own. -/
  path : List Nat
  tagged : Bool
  /-- It has the option `omitempty`, and holds an empty value. -/
  omitted : σ → Bool
  get : σ → Json
  set : Json → σ → Option σ

section
variable {σ : Type}

/-- `f` goes before `g`. -/
def JsonField.dominates (f g : JsonField σ) : Bool :=
  decide (f.path.length < g.path.length) ||
    (f.path.length == g.path.length && f.tagged && !g.tagged)

/-- `f` goes before every other field of its name. -/
def JsonField.visibleIn (fs : List (JsonField σ)) (f : JsonField σ) : Bool :=
  fs.all fun g => g.path == f.path || g.name != f.name || f.dominates g

def visible (fs : List (JsonField σ)) : List (JsonField σ) := fs.filter (JsonField.visibleIn fs)

/-- Letters of either case are one, and so are the two that fold to an ASCII letter. -/
def foldChar (c : Char) : Char :=
  if c = '\u017f' then 's' else if c = '\u212a' then 'k' else c.toLower

def foldName (s : String) : String := String.ofList (s.toList.map foldChar)

/-- The field of a member: the one of its name, else the first that has it in another case. -/
def lookup (fs : List (JsonField σ)) (key : String) : Option (JsonField σ) :=
  match (visible fs).find? fun f => f.name == key with
  | some f => some f
  | none => (visible fs).find? fun f => foldName f.name == foldName key

/-- `json.Marshal` of a struct. -/
def encode (fs : List (JsonField σ)) (s : σ) : Json :=
  .obj (((visible fs).filter fun f => !f.omitted s).map fun f => (f.name, f.get s))

/-- The members of a value that fits a struct or a map. -/
def members : Json → Option (List (String × Json))
  | .obj ms => some ms
  | .null => some []
  | _ => none

/-- What one member sets; one that is no field is skipped. -/
def setMember (fs : List (JsonField σ)) (s : σ) (m : String × Json) : Option σ :=
  match lookup fs m.1 with
  | some f => f.set m.2 s
  | none => some s

/-- `json.Unmarshal` into a struct that holds `s`. -/
def decode (fs : List (JsonField σ)) (s : σ) (v : Json) : Option σ :=
  (members v).bind fun ms => ms.foldlM (setMember fs) s

/-- Set what a value is read as: an error, nothing to set, or a new value. -/
def setField {α : Type} (read : Json → Option (Option α)) (update : α → σ → σ) (v : Json) (s : σ) :
    Option σ :=
  (read v).map fun a => match a with
    | some a => update a s
    | none => s

/-- A string: null leaves it, and any other value is an error. -/
def readString : Json → Option (Option String)
  | .str s => some (some s)
  | .null => some none
  | _ => none

/-! ## What decoding sets -/

theorem lookup_mem {fs : List (JsonField σ)} {key : String} {f : JsonField σ} (h : lookup fs key = some f) :
    f ∈ visible fs := by
  unfold lookup at h
  split at h
  · next g hg =>
    cases h
    exact List.mem_of_find?_eq_some hg
  · exact List.mem_of_find?_eq_some h

theorem setField_keeps {α τ : Type} (φ : σ → τ) {read : Json → Option (Option α)} {update : α → σ → σ}
    {v : Json} {s s' : σ} (hset : setField read update v s = some s')
    (h : ∀ a s, φ (update a s) = φ s) : φ s' = φ s := by
  obtain ⟨a, -, rfl⟩ := Option.map_eq_some_iff.mp hset
  cases a with
  | none => rfl
  | some a => exact h a s

/-- **Decoding keeps what no visible field sets.** -/
theorem decode_keeps {τ : Type} (φ : σ → τ) {fs : List (JsonField σ)}
    (hset : ∀ f ∈ visible fs, ∀ v s s', f.set v s = some s' → φ s' = φ s) {s s' : σ} {v : Json}
    (h : decode fs s v = some s') : φ s' = φ s := by
  obtain ⟨ms, -, hfold⟩ := Option.bind_eq_some_iff.mp h
  clear h
  induction ms generalizing s with
  | nil =>
    cases hfold
    rfl
  | cons m ms ih =>
    simp only [List.foldlM_cons, Option.bind_eq_bind, Option.bind_eq_some_iff] at hfold
    obtain ⟨t, ht, hrest⟩ := hfold
    have hstep : φ t = φ s := by
      unfold setMember at ht
      split at ht
      · next f hf => exact hset f (lookup_mem hf) _ _ _ ht
      · cases ht
        rfl
    exact (ih hrest).trans hstep

/-! ## What is written is read back -/

/-- Visible fields of one name are one field. -/
theorem visible_path_eq {fs : List (JsonField σ)} {f g : JsonField σ} (hf : f ∈ visible fs)
    (hg : g ∈ visible fs) (hname : f.name = g.name) : f.path = g.path := by
  obtain ⟨hfm, hfv⟩ := List.mem_filter.mp hf
  obtain ⟨hgm, hgv⟩ := List.mem_filter.mp hg
  have h₁ := List.all_eq_true.mp hfv g hgm
  have h₂ := List.all_eq_true.mp hgv f hfm
  by_contra hne
  -- each would go before the other
  simp only [hname, JsonField.dominates, Bool.or_eq_true, beq_iff_eq, bne_self_eq_false, Ne.symm hne, hne,
    false_or, decide_eq_true_eq, Bool.and_eq_true, Bool.not_eq_true', Bool.false_eq_true] at h₁ h₂
  grind

theorem lookup_visible {fs : List (JsonField σ)} (hpaths : (fs.map JsonField.path).Nodup) {f : JsonField σ}
    (hf : f ∈ visible fs) : lookup fs f.name = some f := by
  unfold lookup
  have hfound : (visible fs).find? (fun g => g.name == f.name) = some f := by
    cases hfind : (visible fs).find? (fun g => g.name == f.name) with
    | none => exact absurd (beq_self_eq_true f.name) (by simpa using List.find?_eq_none.mp hfind f hf)
    | some g =>
      have hname : g.name = f.name := by simpa using List.find?_some hfind
      have hg := List.mem_of_find?_eq_some hfind
      exact congrArg some (List.inj_on_of_nodup_map hpaths (List.mem_of_mem_filter hg)
        (List.mem_of_mem_filter hf) (visible_path_eq hg hf hname))
  rw [hfound]

/-- **Reading what was written** sets the visible fields that were not omitted, in their order. -/
theorem decode_encode {fs : List (JsonField σ)} (hpaths : (fs.map JsonField.path).Nodup) (s s₀ : σ) :
    decode fs s₀ (encode fs s) = ((visible fs).filter fun f => !f.omitted s).foldlM
      (fun acc f => f.set (f.get s) acc) s₀ := by
  have hmem : ∀ f ∈ (visible fs).filter (fun f => !f.omitted s), lookup fs f.name = some f :=
    fun f hf => lookup_visible hpaths (List.mem_of_mem_filter hf)
  show (((visible fs).filter fun f => !f.omitted s).map fun f => (f.name, f.get s)).foldlM
    (setMember fs) s₀ = _
  generalize (visible fs).filter (fun f => !f.omitted s) = written at hmem ⊢
  induction written generalizing s₀ with
  | nil => rfl
  | cons f rest ih =>
    simp only [List.map_cons, List.foldlM_cons]
    have hstep : setMember fs s₀ (f.name, f.get s) = f.set (f.get s) s₀ := by
      simp only [setMember, hmem f List.mem_cons_self]
    rw [hstep]
    congr 1
    funext t
    exact ih t fun g hg => hmem g (List.mem_cons_of_mem _ hg)

end

end StructFields
