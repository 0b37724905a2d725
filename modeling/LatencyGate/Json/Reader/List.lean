import LatencyGate.Json.Reader

namespace LatencyGate.Json.Reader

/-- Goes to the next item of an array, and tells whether there is one. The closing bracket stays in
place. -/
def nextItem (first : Bool) : Reader Bool where
  run s :=
    match skipBlanks s with
    | [] => .error ⟨.endInArray, 0, 0⟩
    | b :: r =>
      if b = byte ']' then .ok (false, b :: r)
      else if first then .ok (true, b :: r)
      else if b = byte ',' then
        match skipBlanks r with
        | [] => .error ⟨.endInValue, 0, 0⟩
        | c :: t => if c = byte ']' then .error ⟨.trailingComma, t.length, 0⟩ else .ok (true, c :: t)
      else .error ⟨.expectedItemEnd, r.length, 0⟩
  rest_le {s a t} h := by
    have le := skipBlanks_length_le s
    revert h
    cases hs : skipBlanks s with
    | nil => nofun
    | cons b r =>
      have le' := skipBlanks_length_le r
      simp only [hs, List.length_cons] at le
      dsimp only
      intro h
      split at h
      · cases h; simpa using le
      split at h
      · cases h; simpa using le
      split at h
      · cases hr : skipBlanks r with
        | nil => simp [hr] at h
        | cons c t =>
          simp only [hr, List.length_cons] at le' h
          split at h
          · nomatch h
          · cases h; simp only [List.length_cons]; omega
      · nomatch h

theorem nextItem_rest_lt {s r : Bytes} (h : (nextItem false).run s = .ok (true, r)) :
    r.length < s.length := by
  have le := skipBlanks_length_le s
  revert h
  simp only [nextItem]
  cases hs : skipBlanks s with
  | nil => nofun
  | cons b t =>
    have le' := skipBlanks_length_le t
    simp only [hs, List.length_cons] at le
    dsimp only
    intro h
    split at h
    · nomatch h
    split at h
    · contradiction
    split at h
    · cases ht : skipBlanks t with
      | nil => simp [ht] at h
      | cons c u =>
        simp only [ht, List.length_cons] at le' h
        split at h
        · nomatch h
        · cases h; simp only [List.length_cons]; omega
    · nomatch h

def itemSeparator : Separator := ⟨nextItem, nextItem_rest_lt⟩

/-- Goes to the next key of an object, behind its opening quote, and tells whether there is one. The
closing brace stays in place. -/
def nextKey (first : Bool) : Reader Bool where
  run s :=
    match skipBlanks s with
    | [] => .error ⟨.endInObject, 0, 0⟩
    | b :: r =>
      if b = byte '\x7d' then .ok (false, b :: r)
      else if first then
        if b = byte '"' then .ok (true, r) else .error ⟨.keyNotString, r.length, 0⟩
      else if b = byte ',' then
        match skipBlanks r with
        | [] => .error ⟨.endInValue, 0, 0⟩
        | c :: t =>
          if c = byte '"' then .ok (true, t)
          else if c = byte '\x7d' then .error ⟨.trailingComma, t.length, 0⟩
          else .error ⟨.keyNotString, t.length, 0⟩
      else .error ⟨.expectedMemberEnd, r.length, 0⟩
  rest_le {s a t} h := by
    have le := skipBlanks_length_le s
    revert h
    cases hs : skipBlanks s with
    | nil => nofun
    | cons b r =>
      have le' := skipBlanks_length_le r
      simp only [hs, List.length_cons] at le
      dsimp only
      intro h
      split at h
      · cases h; simpa using le
      split at h
      · split at h
        · cases h; omega
        · nomatch h
      split at h
      · cases hr : skipBlanks r with
        | nil => simp [hr] at h
        | cons c t =>
          simp only [hr, List.length_cons] at le' h
          split at h
          · cases h; omega
          split at h <;> nomatch h
      · nomatch h

theorem nextKey_rest_lt {s r : Bytes} (h : (nextKey false).run s = .ok (true, r)) :
    r.length < s.length := by
  have le := skipBlanks_length_le s
  revert h
  simp only [nextKey]
  cases hs : skipBlanks s with
  | nil => nofun
  | cons b t =>
    have le' := skipBlanks_length_le t
    simp only [hs, List.length_cons] at le
    dsimp only
    intro h
    split at h
    · nomatch h
    split at h
    · contradiction
    split at h
    · cases ht : skipBlanks t with
      | nil => simp [ht] at h
      | cons c u =>
        simp only [ht, List.length_cons] at le' h
        split at h
        · cases h; omega
        split at h <;> nomatch h
    · nomatch h

def memberSeparator : Separator := ⟨nextKey, nextKey_rest_lt⟩

def colon : Reader Unit :=
  token .endInObject fun b => if b = byte ':' then pure () else fail .expectedColon

end LatencyGate.Json.Reader
