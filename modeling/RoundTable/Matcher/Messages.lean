import Mathlib.Data.List.AList
import RoundTable.Shared.PublicKey

set_option autoImplicit false

namespace RoundTable.Matcher

def advertiseTimeout : Int := 15000
def servingRebroadcastTimeout : Int := 10000
def claimAckTimeout : Int := 5000

-- The `match` field of a parsed advert: a string, or another value with its text.
inductive MatchField where
  | string (value : String)
  | other (text : String)
deriving DecidableEq

def MatchField.toString : MatchField → String
  | .string value => value
  | .other text => text

def getMatchID (advertiser : PublicKey) (match_ : MatchField) : String :=
  advertiser.toString ++ match_.toString

theorem getMatchID_ne_empty (advertiser : PublicKey) (match_ : MatchField) :
    getMatchID advertiser match_ ≠ "" := by
  intro empty
  have texts := congrArg String.toList empty
  simp only [getMatchID, String.toList_append, String.toList_empty, List.append_eq_nil_iff] at texts
  apply advertiser.toString_ne_empty
  simpa using texts.1

section Messages

variable (Counter : Type)

structure MatchAdvertiseMessage where
  advertiser : PublicKey
  match_ : MatchField
  counter : Counter
deriving DecidableEq

structure MatchUnadvertiseMessage where
  matchId : String
deriving DecidableEq

structure MatchClaimMessage where
  matchId : String
  user : PublicKey
  counter : Counter
deriving DecidableEq

structure MatchAckMessage where
  matchId : String
  user : PublicKey
deriving DecidableEq

inductive Message where
  | advertise (msg : MatchAdvertiseMessage Counter)
  | unadvertise (msg : MatchUnadvertiseMessage)
  | claim (msg : MatchClaimMessage Counter)
  | ack (msg : MatchAckMessage)
deriving DecidableEq

structure MatchState where
  advertiser : PublicKey
  advertiserCounter : Counter
  match_ : MatchField
  matchId : String
  lastSeen : Int
  claimsSeen : List (PublicKey × Counter)
  acksSeen : List PublicKey
deriving DecidableEq

end Messages

variable {Counter : Type}

def MatchState.new (advertiser : PublicKey) (advertiserCounter : Counter) (match_ : MatchField)
    (lastSeen : Int) : MatchState Counter :=
  { advertiser
    advertiserCounter
    match_
    matchId := getMatchID advertiser match_
    lastSeen
    claimsSeen := []
    acksSeen := [] }

def MatchState.pushClaim (match_ : MatchState Counter) (user : PublicKey) (counter : Counter) :
    MatchState Counter :=
  { match_ with claimsSeen := match_.claimsSeen ++ [(user, counter)] }

def MatchState.pushAck (match_ : MatchState Counter) (user : PublicKey) : MatchState Counter :=
  { match_ with acksSeen := match_.acksSeen ++ [user] }

@[simp] theorem pushClaim_matchId (match_ : MatchState Counter) (user : PublicKey)
    (counter : Counter) : (match_.pushClaim user counter).matchId = match_.matchId := rfl

@[simp] theorem pushAck_matchId (match_ : MatchState Counter) (user : PublicKey) :
    (match_.pushAck user).matchId = match_.matchId := rfl

@[simp] theorem pushAck_claimsSeen (match_ : MatchState Counter) (user : PublicKey) :
    (match_.pushAck user).claimsSeen = match_.claimsSeen := rfl

@[simp] theorem pushAck_acksSeen (match_ : MatchState Counter) (user : PublicKey) :
    (match_.pushAck user).acksSeen = match_.acksSeen ++ [user] := rfl

def MatchState.getCounter [IntCast Counter] (match_ : MatchState Counter) (id : PublicKey) :
    Counter :=
  if match_.advertiser = id then match_.advertiserCounter
  else
    match match_.claimsSeen.find? (fun claim => claim.1 = id) with
    | some claim => claim.2
    | none => ((-1 : Int) : Counter)

end RoundTable.Matcher
