import ResourceLocator.Failure

/-!
# Values can be compared

Values are trees, and two of them are the same if they are built in the same way (`Value.isSame`,
`Value.isSame_iff`). So it can be decided which value is read of a text, and how a computation with
values ends.
-/

namespace ResourceLocator

namespace Value

mutual

/-- Whether two values are the same. -/
def isSame : Value → Value → Bool
  | .undefined, .undefined | .null, .null | .cycle, .cycle => true
  | .bool a, .bool b => a == b
  | .number m, .number n => m == n
  | .integer i, .integer j => i == j
  | .instant t, .instant u => t == u
  | .symbol s, .symbol t | .text s, .text t => s == t
  | .list as, .list bs | .set as, .set bs => areSame as bs
  | .record as, .record bs => areSameFields as bs
  | .error j s as, .error k t bs => j == k && s == t && areSameFields as bs
  | .bytes as, .bytes bs => as == bs
  | .table as, .table bs => areSameEntries as bs
  | _, _ => false

/-- Whether two lists have the same values. -/
def areSame : List Value → List Value → Bool
  | [], [] => true
  | a :: as, b :: bs => isSame a b && areSame as bs
  | _, _ => false

/-- Whether two records have the same fields in the same order. -/
def areSameFields : List (String × Value) → List (String × Value) → Bool
  | [], [] => true
  | (s, a) :: as, (t, b) :: bs => s == t && isSame a b && areSameFields as bs
  | _, _ => false

/-- Whether two tables have the same entries in the same order. -/
def areSameEntries : List (Value × Value) → List (Value × Value) → Bool
  | [], [] => true
  | (s, a) :: as, (t, b) :: bs => isSame s t && isSame a b && areSameEntries as bs
  | _, _ => false

end

mutual

/-- **Two values are the same** if and only if they are built in the same way. -/
theorem isSame_iff : (v w : Value) → (isSame v w = true ↔ v = w)
  | .list as, w | .set as, w => by cases w <;> simp [isSame, areSame_iff as]
  | .record as, w | .error _ _ as, w => by
    cases w <;> simp [isSame, areSameFields_iff as, and_assoc]
  | .table as, w => by cases w <;> simp [isSame, areSameEntries_iff as]
  | .undefined, w | .null, w | .cycle, w | .bool _, w | .number _, w | .integer _, w
  | .instant _, w | .symbol _, w | .text _, w | .bytes _, w => by cases w <;> simp [isSame]

theorem areSame_iff : (as bs : List Value) → (areSame as bs = true ↔ as = bs)
  | [], bs => by cases bs <;> simp [areSame]
  | a :: as, bs => by cases bs <;> simp [areSame, isSame_iff a, areSame_iff as]

theorem areSameFields_iff :
    (as bs : List (String × Value)) → (areSameFields as bs = true ↔ as = bs)
  | [], bs => by cases bs <;> simp [areSameFields]
  | _ :: _, [] => by simp [areSameFields]
  | (s, a) :: as, (t, b) :: bs => by simp [areSameFields, isSame_iff a, areSameFields_iff as]

theorem areSameEntries_iff :
    (as bs : List (Value × Value)) → (areSameEntries as bs = true ↔ as = bs)
  | [], bs => by cases bs <;> simp [areSameEntries]
  | _ :: _, [] => by simp [areSameEntries]
  | (s, a) :: as, (t, b) :: bs => by
    simp [areSameEntries, isSame_iff s, isSame_iff a, areSameEntries_iff as]

end

instance : DecidableEq Value := fun v w ↦ decidable_of_iff _ (isSame_iff v w)

end Value

deriving instance DecidableEq for Failure

end ResourceLocator
