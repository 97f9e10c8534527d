import AppendLog.Number.Kind

/-! Shapes: descriptions of how a value is laid out in bytes.

A shape stands in for a type where none is at hand. Void shapes name things that
live in memory only and take no bytes.
-/

set_option autoImplicit false

namespace AppendLog

inductive VoidKind where
  | channel | function | map
  deriving DecidableEq, Repr

namespace VoidKind

def all : List VoidKind := [channel, function, map]

def name : VoidKind → String
  | channel => "chan"
  | function => "func"
  | map => "map"

end VoidKind

inductive Shape where
  | bool
  | int (kind : IntKind)
  | float (kind : FloatKind)
  | complex (kind : FloatKind)
  | text
  | seq (item : Shape)
  | array (item : Shape) (length : Nat)
  | optional (item : Shape)
  | record (fields : List (String × Shape))
  | void (kind : VoidKind)
  deriving Repr

namespace Shape

mutual

def decEq (left right : Shape) : Decidable (left = right) :=
  match left, right with
  | bool, right => match right with
    | bool => isTrue rfl
    | int .. | float .. | complex .. | text | seq .. | array .. | optional .. | record ..
    | void .. => isFalse (by simp)
  | int kind, right => match right with
    | int kind' => if h : kind = kind' then isTrue (by rw [h]) else isFalse (by simp [h])
    | bool | float .. | complex .. | text | seq .. | array .. | optional .. | record ..
    | void .. => isFalse (by simp)
  | float kind, right => match right with
    | float kind' => if h : kind = kind' then isTrue (by rw [h]) else isFalse (by simp [h])
    | bool | int .. | complex .. | text | seq .. | array .. | optional .. | record ..
    | void .. => isFalse (by simp)
  | complex kind, right => match right with
    | complex kind' => if h : kind = kind' then isTrue (by rw [h]) else isFalse (by simp [h])
    | bool | int .. | float .. | text | seq .. | array .. | optional .. | record ..
    | void .. => isFalse (by simp)
  | text, right => match right with
    | text => isTrue rfl
    | bool | int .. | float .. | complex .. | seq .. | array .. | optional .. | record ..
    | void .. => isFalse (by simp)
  | seq item, right => match right with
    | seq item' => match decEq item item' with
      | isTrue h => isTrue (by rw [h])
      | isFalse h => isFalse (by simp [h])
    | bool | int .. | float .. | complex .. | text | array .. | optional .. | record ..
    | void .. => isFalse (by simp)
  | array item length, right => match right with
    | array item' length' => match decEq item item' with
      | isTrue h =>
        if h' : length = length' then isTrue (by rw [h, h']) else isFalse (by simp [h'])
      | isFalse h => isFalse (by simp [h])
    | bool | int .. | float .. | complex .. | text | seq .. | optional .. | record ..
    | void .. => isFalse (by simp)
  | optional item, right => match right with
    | optional item' => match decEq item item' with
      | isTrue h => isTrue (by rw [h])
      | isFalse h => isFalse (by simp [h])
    | bool | int .. | float .. | complex .. | text | seq .. | array .. | record ..
    | void .. => isFalse (by simp)
  | record fields, right => match right with
    | record fields' => match decEqFields fields fields' with
      | isTrue h => isTrue (by rw [h])
      | isFalse h => isFalse (by simp [h])
    | bool | int .. | float .. | complex .. | text | seq .. | array .. | optional ..
    | void .. => isFalse (by simp)
  | void kind, right => match right with
    | void kind' => if h : kind = kind' then isTrue (by rw [h]) else isFalse (by simp [h])
    | bool | int .. | float .. | complex .. | text | seq .. | array .. | optional ..
    | record .. => isFalse (by simp)

def decEqFields (left right : List (String × Shape)) : Decidable (left = right) :=
  match left, right with
  | [], [] => isTrue rfl
  | [], _ :: _ => isFalse (by simp)
  | _ :: _, [] => isFalse (by simp)
  | (name, shape) :: rest, (name', shape') :: rest' =>
    if h : name = name' then
      match decEq shape shape' with
      | isTrue h' => match decEqFields rest rest' with
        | isTrue h'' => isTrue (by rw [h, h', h''])
        | isFalse h'' => isFalse (by simp [h''])
      | isFalse h' => isFalse (by simp [h'])
    else isFalse (by simp [h])

end

instance : DecidableEq Shape := decEq

def named : List (String × Shape) :=
  [("bool", bool), ("str", text)]
    ++ IntKind.all.map (fun kind => (kind.name, int kind))
    ++ FloatKind.all.map (fun kind => (kind.name, float kind))
    ++ FloatKind.all.map (fun kind => (kind.complexName, complex kind))
    ++ VoidKind.all.map (fun kind => (kind.name, void kind))

def ofName? (name : String) : Option Shape := named.lookup name

mutual

def render : Shape → String
  | bool => "bool"
  | int kind => kind.name
  | float kind => kind.name
  | complex kind => kind.complexName
  | text => "str"
  | seq item => "[" ++ item.render ++ "]"
  | array item length => "[" ++ item.render ++ "; " ++ Nat.repr length ++ "]"
  | optional item => "?" ++ item.render
  | record fields => "\x7b" ++ renderFields fields ++ "\x7d"
  | void kind => kind.name

def renderFields : List (String × Shape) → String
  | [] => ""
  | (name, shape) :: rest => name ++ ": " ++ shape.render ++ renderMoreFields rest

def renderMoreFields : List (String × Shape) → String
  | [] => ""
  | (name, shape) :: rest => ", " ++ name ++ ": " ++ shape.render ++ renderMoreFields rest

end

end Shape

end AppendLog
