import ExpiringCache.Cache
import ExpiringCache.Snapshot.KeyOrder

/-!
# Commands

What can be asked of a session, and what it answers.
-/

namespace ExpiringCache.Session

/-- Where a command takes bytes from. -/
inductive Origin where
  /-- The bytes that were saved under a name. -/
  | buffer (name : String)
  /-- The given bytes. -/
  | bytes (content : List UInt8)

/-- A change to bytes before they are loaded. -/
inductive Edit where
  /-- Keep the first bytes. -/
  | keep (count : Nat)
  /-- Leave out the last bytes. -/
  | drop (count : Nat)
  /-- Replace one byte. -/
  | put (index : Nat) (byte : UInt8)
  /-- Add bytes at the end. -/
  | append (content : List UInt8)

/-- The bytes after a change. -/
def Edit.apply (bytes : List UInt8) : Edit → List UInt8
  | .keep count => bytes.take count
  | .drop count => bytes.take (bytes.length - count)
  | .put index byte => bytes.set index byte
  | .append content => bytes ++ content

/-- Something asked of a session. Most commands are for one of its caches. -/
inductive Command where
  /-- Carry out an operation. -/
  | perform (operation : Operation)
  /-- Look up a key and compare the value with the given one. -/
  | getSame (key : String) (value : Value)
  /-- Increment the integer under a key a number of times, whatever comes of it. -/
  | repeatIncrement (key : String) (delta : Int64) (times : Nat)
  /-- Tell the default lifetime. -/
  | lifetime
  /-- Count the items. -/
  | size
  /-- Tell the statistics. -/
  | tally
  /-- List the items. A cache lists those in a snapshot of it. -/
  | items
  /-- Save to a sink, and keep the bytes under a name, if there is one. -/
  | save (buffer : Option String) (sink : Sink)
  /-- Load bytes that are given at most `perCall` at a time and fail after `failAfter`. -/
  | load (origin : Origin) (edits : List Edit) (perCall failAfter : Option Nat)
  /-- Take in the items of a table. -/
  | merge (incoming : Table Item)
  /-- Tell the time that is left to the item under a key, without removing it. -/
  | timeLeft (key : String)
  /-- Remove all expired items. -/
  | sweep
  /-- Save to a file. -/
  | saveFile (path : String)
  /-- Load from a file. -/
  | loadFile (path : String)
  /-- An operation that no cache in memory has. -/
  | network (operation : NetworkOperation)
  /-- Tell the shard of a key and the number of shards. -/
  | bucket (key : String)
  /-- Tell the statistics of each shard. -/
  | shardTallies
  /-- Stop the sweeper. -/
  | close
  /-- Tell how the sweeper is doing. -/
  | sweeper
  /-- Describe the reporter. -/
  | reporter
  /-- Let go of the cache. -/
  | drop
  /-- Put a file into the directory of the session. -/
  | putFile (path : String) (content : List UInt8)
  /-- Show the content of a file, the entries of a snapshot in key order. -/
  | showFile (path : String)
  /-- Make a directory. -/
  | makeDirectory (path : String)
  /-- Show the names in the directory of the session. -/
  | listFiles
  /-- Set the clock. -/
  | setClock (nanos : Int)
  /-- Move the clock. -/
  | advance (nanos : Int)

/-- What a session answers. -/
inductive Answer where
  /-- The answer of an operation. -/
  | reply (reply : Reply)
  /-- The command has failed. -/
  | error (error : Failure)
  /-- A save has failed after some bytes. -/
  | saveError (error : Failure) (written : Nat)
  /-- There is no such cache. -/
  | noCache
  /-- A snapshot. -/
  | snapshot (bytes : List UInt8)
  /-- The content of a file. -/
  | content (bytes : List UInt8)
  /-- A lifetime. -/
  | lifetime (lifetime : Option Duration)
  /-- The number of items, and whether there are none. -/
  | size (count : Nat) (isEmpty : Bool)
  /-- Statistics. -/
  | tally (tally : Tally)
  /-- Items. -/
  | items (items : Table Item)
  /-- The time left to an item and whether it has expired, if there is an item. -/
  | timeLeft (left : Option (Option Duration × Bool))
  /-- A shard and the number of shards. -/
  | bucket (index count : Nat)
  /-- The statistics of each shard. -/
  | shardTallies (tally : List Tally)
  /-- A sweeper, if there is one. -/
  | sweeper (sweeper : Option Sweeper)
  /-- A description. -/
  | text (text : String)
  /-- Names. -/
  | names (names : List String)

end ExpiringCache.Session
