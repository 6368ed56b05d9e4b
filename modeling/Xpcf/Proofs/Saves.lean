import Xpcf.Proofs.RoundTrip

/-!
# Saving several times into one file

Every call of `serialize` adds a `<properties>` node to the file, and `configure`
reads the first one.  So a file is read as its first call left it
(`restores_savedFile_iff_first`), and the last values of a component come back
exactly when the first call saved them (`last_values_restored`).
-/

namespace Xpcf

open CodeLib CodeLib.Exec

/-! ## Runs -/

/-- The file after the calls, from no file.  A call is the component and its
values at the time. -/
def savedFile (floats : FloatText) (calls : List (Uuid × PropertyMap)) : Option XMLElement :=
  calls.foldl (fun file call => some (serialize floats call.1 call.2 file)) none

/-- The calls for the component, in order. -/
def callsOf (uuid : Uuid) (calls : List (Uuid × PropertyMap)) : List PropertyMap :=
  (calls.filter fun call => call.1 = uuid).map Prod.snd

section Saves

variable {env : Env} {floats : FloatText} {aliases : AliasContext} {uuid : Uuid}

/-- Whatever is saved into the file later, its first `<properties>` node is the
one of the first call. -/
theorem savedFile_first (first : Uuid × PropertyMap) (calls : List (Uuid × PropertyMap)) :
    ∃ root, savedFile floats (first :: calls) = some root ∧
      root.childElements "configuration" = [] ∧
      (root.childElements "properties").head? =
        some (serializedProperties floats first.1 first.2) := by
  have hrun : ∀ (calls : List (Uuid × PropertyMap)) (file : XMLElement),
      file.childElements "configuration" = [] →
      (file.childElements "properties").head? =
        some (serializedProperties floats first.1 first.2) →
      ∃ root, calls.foldl (fun file call => some (serialize floats call.1 call.2 file))
          (some file) = some root ∧ root.childElements "configuration" = [] ∧
        (root.childElements "properties").head? =
          some (serializedProperties floats first.1 first.2) := by
    intro calls
    induction calls with
    | nil => exact fun file hconfig hprops => ⟨file, rfl, hconfig, hprops⟩
    | cons call calls ih =>
      intro file hconfig hprops
      obtain ⟨hconfig1, hprops1⟩ := @childElements_serialize floats call.1 call.2 (some file)
      refine ih (serialize floats call.1 call.2 (some file)) (hconfig1.trans hconfig) ?_
      rw [hprops1, List.head?_append]
      show (file.childElements "properties").head?.or _ = _
      rw [hprops]
      rfl
  obtain ⟨hconfig, hprops⟩ := @childElements_serialize floats first.1 first.2 none
  exact hrun calls _ hconfig (congrArg List.head? hprops)

/-- `configure` sees the first `<properties>` node only. -/
theorem restores_congr {root root1 : XMLElement} {saved : Uuid} {values values1 : PropertyMap}
    (hconfig : root.childElements "configuration" = [])
    (hconfig1 : root1.childElements "configuration" = [])
    (hprops : (root.childElements "properties").head? =
      some (serializedProperties floats saved values))
    (hprops1 : (root1.childElements "properties").head? =
      some (serializedProperties floats saved values)) :
    Restores env floats aliases uuid root values1 ↔
      Restores env floats aliases uuid root1 values1 := by
  have hrun : ∀ target restored,
      configure env floats unnamedPredicate uuid aliases (some root) target =
        (.ok .success, restored) ↔
      configure env floats unnamedPredicate uuid aliases (some root1) target =
        (.ok .success, restored) := fun target restored =>
    (succeeds_savedDocument_iff hconfig hprops).trans
      (succeeds_savedDocument_iff hconfig1 hprops1).symm
  unfold Restores
  simp only [hrun]

/-- The file is read as its first call left it. -/
theorem restores_savedFile_iff_first {first : Uuid × PropertyMap}
    {calls : List (Uuid × PropertyMap)} {root : XMLElement} {values : PropertyMap}
    (hroot : savedFile floats (first :: calls) = some root) :
    Restores env floats aliases uuid root values ↔
      Restores env floats aliases uuid (serialize floats first.1 first.2 none) values := by
  obtain ⟨root1, hroot1, hconfig, hprops⟩ := @savedFile_first floats first calls
  cases hroot.symm.trans hroot1
  obtain ⟨hconfig1, hprops1⟩ := @childElements_serialize floats first.1 first.2 none
  exact restores_congr hconfig hconfig1 hprops (congrArg List.head? hprops1)

/-- Two trees of one shape that are restored from the same document hold the
same values. -/
theorem sameValues_of_restores {root : XMLElement} {values values1 : PropertyMap}
    (hshape : values.SameShape values1) (h : Restores env floats aliases uuid root values)
    (h1 : Restores env floats aliases uuid root values1) : values.SameValues values1 := by
  obtain ⟨restored, hrun, hsame⟩ := h values1 hshape
  obtain ⟨restored1, hrun1, hsame1⟩ := h1 values1 (PropertyMap.Rel.refl (fun _ _ => trivial) _)
  cases hrun.symm.trans hrun1
  exact hsame.trans hsame1.symm

theorem Restores.of_sameValues {root : XMLElement} {values values1 : PropertyMap}
    (hsame : values.SameValues values1) (h : Restores env floats aliases uuid root values1) :
    Restores env floats aliases uuid root values := by
  intro target hshape
  obtain ⟨restored, hrun, hsame1⟩ := h target (hsame.symm.sameShape.trans hshape)
  exact ⟨restored, hrun, hsame.trans hsame1⟩

/-- The tree of the component survives being saved on its own. -/
def RoundTrips (env : Env) (floats : FloatText) (aliases : AliasContext) (uuid : Uuid)
    (values : PropertyMap) : Prop :=
  Restores env floats aliases uuid (serialize floats uuid values none) values

/-- The first call into the file saved these values of the component. -/
def FirstSaves (uuid : Uuid) (calls : List (Uuid × PropertyMap)) (values : PropertyMap) : Prop :=
  ∃ first, calls.head? = some (uuid, first) ∧ values.SameValues first

theorem mem_callsOf_head {values : PropertyMap} {calls : List (Uuid × PropertyMap)} :
    values ∈ callsOf uuid ((uuid, values) :: calls) := by
  unfold callsOf
  rw [List.filter_cons_of_pos (by simp)]
  exact List.mem_cons_self

/-- In a run whose calls for the component all save trees that round-trip, the
last values come back if the first call into the file saved them; and only
then, as long as the text of a UUID names that UUID and the component keeps its
shape, unless it holds no value at all. -/
theorem last_values_restored {calls : List (Uuid × PropertyMap)} {root : XMLElement}
    {last : PropertyMap} (hroot : savedFile floats calls = some root)
    (hlast : (callsOf uuid calls).getLast? = some last)
    (hround : ∀ values ∈ callsOf uuid calls, RoundTrips env floats aliases uuid values) :
    (FirstSaves uuid calls last → Restores env floats aliases uuid root last) ∧
      ((∀ u, namedBy env aliases u = .ok u) →
        (∀ values ∈ callsOf uuid calls, last.SameShape values) →
        Restores env floats aliases uuid root last →
          FirstSaves uuid calls last ∨ last.NoValues) := by
  cases calls with
  | nil => cases hroot
  | cons first calls =>
    rw [restores_savedFile_iff_first hroot]
    constructor
    · rintro ⟨values, hfirst, hsame⟩
      cases hfirst
      exact (hround values mem_callsOf_head).of_sameValues hsame
    · intro hnames hshape hrestores
      obtain ⟨saved, values⟩ := first
      by_cases hsaved : saved = uuid
      · subst hsaved
        have hmem := @mem_callsOf_head saved values calls
        have hsame := sameValues_of_restores (hshape values hmem) hrestores (hround values hmem)
        exact .inl ⟨values, rfl, hsame⟩
      · obtain ⟨hconfig, hprops⟩ := @childElements_serialize floats saved values none
        have hfirst := congrArg List.head? hprops
        exact .inr ((restores_other_iff hconfig hfirst (hnames saved) hsaved).mp hrestores)

end Saves

/-- The first and the last call are for the same component. -/
theorem countAndLabels_restored :
    Restores (Env.simple []) .none AliasContext.empty 1
      (serialize .none 1 countAndLabels
        (savedFile .none [(1, countAndLabels), (2, countAndLabels)]))
      countAndLabels := by
  have hround : ∀ values ∈ callsOf 1 [(1, countAndLabels), (2, countAndLabels),
      (1, countAndLabels)], RoundTrips (Env.simple []) .none AliasContext.empty 1 values := by
    intro values hvalues
    obtain rfl : values = countAndLabels := by simpa [callsOf] using hvalues
    obtain ⟨hconfig, hprops⟩ := @childElements_serialize .none 1 countAndLabels none
    exact (restores_itself_iff plain_countAndLabels hconfig (congrArg List.head? hprops)
      (by rfl)).mpr restorable_countAndLabels
  exact (last_values_restored rfl rfl hround).1
    ⟨countAndLabels, rfl, PropertyMap.Rel.refl (fun _ _ => rfl) _⟩

def oneCount (n : BitVec 32) : PropertyMap :=
  .mk [.value "count" .inOut .integer (.single n)]

theorem roundTrips_oneCount (n : BitVec 32) :
    RoundTrips (Env.simple []) .none AliasContext.empty 1 (oneCount n) := by
  have hplain : (oneCount n).Plain :=
    ⟨⟨by simp [oneCount], List.nodup_singleton _⟩, List.forall_mem_singleton.mpr (.value trivial)⟩
  obtain ⟨hconfig, hprops⟩ := @childElements_serialize .none 1 (oneCount n) none
  exact (restores_itself_iff hplain hconfig (congrArg List.head? hprops) (by rfl)).mpr
    (List.forall_mem_singleton.mpr (.value (by decide) trivial))

/-- After another component, and after earlier values, the last values are not
read. -/
theorem last_values_hidden :
    RoundTrips (Env.simple []) .none AliasContext.empty 1 (oneCount 5) ∧
    RoundTrips (Env.simple []) .none AliasContext.empty 1 (oneCount 6) ∧
    configure (Env.simple []) .none unnamedPredicate 1 AliasContext.empty
      (savedFile .none [(2, oneCount 5), (1, oneCount 6)]) (oneCount 0) =
        (.ok .success, oneCount 0) ∧
    configure (Env.simple []) .none unnamedPredicate 1 AliasContext.empty
      (savedFile .none [(1, oneCount 5), (1, oneCount 6)]) (oneCount 0) =
        (.ok .success, oneCount 5) :=
  ⟨roundTrips_oneCount 5, roundTrips_oneCount 6, by rfl, by rfl⟩

end Xpcf
